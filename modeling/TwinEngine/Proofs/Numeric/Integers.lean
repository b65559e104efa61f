import Mathlib.Data.Nat.Count
import Mathlib.Data.Nat.Find
import TwinEngine.Numeric.Evaluation
import TwinEngine.Proofs.Outcome

/-!
Contract: the operators on integers compute what arithmetic on integers gives.

Owns: the exact outcome of every operator on integers, and the payload of an integer modulo a power
of two.

The bits of a number stand for an integer in two ways. Counts are the greatest number of zeros at an
end of the bits, or the number of ones among them.
-/

namespace TwinEngine.Numeric

open BitVec (ofInt ofInt_add ofInt_mul eq_of_toNat_eq toNat_inj toInt_inj)

/-- The integer for which the bits of a number stand. -/
def Sign.reading (width number : Nat) : Sign → Int
  | .signed => Int.bmod number (2 ^ width)
  | .unsigned => number

def IntComparison.exact (width left right : Nat) : IntComparison → Bool
  | .eq => left = right
  | .ne => left ≠ right
  | .lt sign => sign.reading width left < sign.reading width right
  | .gt sign => sign.reading width left > sign.reading width right
  | .le sign => sign.reading width left ≤ sign.reading width right
  | .ge sign => sign.reading width left ≥ sign.reading width right

def BitCount.exact (width number : Nat) : BitCount → Nat
  | .leadingZeros => Nat.findGreatest (fun count => number < 2 ^ (width - count)) width
  | .trailingZeros => Nat.findGreatest (fun count => 2 ^ count ∣ number) width
  | .ones => Nat.count (fun place => number.testBit place) width

/-- Division rounds toward zero, a shift to the right rounds down. A rotation adds what is shifted
out at one end to the other. -/
def IntBinary.exact (width left right : Nat) : IntBinary → Except Trap Int
  | .add => .ok (left + right)
  | .sub => .ok (left - right)
  | .mul => .ok (left * right)
  | .div sign =>
    if right = 0 then .error .integerDivideByZero
    else if sign = .signed ∧ sign.reading width left = -2 ^ (width - 1) ∧
        sign.reading width right = -1 then .error .integerOverflow
    else .ok ((sign.reading width left).tdiv (sign.reading width right))
  | .rem sign =>
    if right = 0 then .error .integerDivideByZero
    else .ok ((sign.reading width left).tmod (sign.reading width right))
  | .and => .ok (left &&& right : Nat)
  | .or => .ok (left ||| right : Nat)
  | .xor => .ok (left ^^^ right : Nat)
  | .shl => .ok (left * 2 ^ (right % width))
  | .shr sign => .ok (sign.reading width left / 2 ^ (right % width))
  | .rotl => .ok (left * 2 ^ (right % width) + left / 2 ^ (width - right % width))
  | .rotr => .ok (left / 2 ^ (right % width) + left * 2 ^ (width - right % width))

/-- The exact outcome of an operator on integers, none for the other operators. -/
def Operator.outcome? (left right : Nat) : Operator → Option (Except Trap Int)
  | .eqz width => some (.ok (decide (left % 2 ^ width.bits = 0)).toNat)
  | .compareInt width comparison => some (.ok
      (comparison.exact width.bits (left % 2 ^ width.bits) (right % 2 ^ width.bits)).toNat)
  | .count width what => some (.ok (what.exact width.bits (left % 2 ^ width.bits)))
  | .binaryInt width operation =>
    some (operation.exact width.bits (left % 2 ^ width.bits) (right % 2 ^ width.bits))
  | .wrap => some (.ok left)
  | .extend .unsigned => some (.ok (left % 2 ^ 32))
  | .extend8 _ => some (.ok (Sign.signed.reading 8 left))
  | .extend16 _ => some (.ok (Sign.signed.reading 16 left))
  | .extend .signed | .extend32 => some (.ok (Sign.signed.reading 32 left))
  | _ => none

section

variable {width : Nat} (left right : BitVec width)

theorem signed_reading : Sign.signed.reading width left.toNat = left.toInt :=
  left.toInt_eq_toNat_bmod.symm

theorem IntComparison.holds_eq (comparison : IntComparison) :
    comparison.holds left right = comparison.exact width left.toNat right.toNat := by
  rcases comparison with _ | _ | (_ | _) | (_ | _) | (_ | _) | (_ | _) <;>
    simp [holds, exact, signed_reading, Sign.reading.eq_2, BitVec.slt, BitVec.sle, BitVec.ult,
      BitVec.ule, toNat_inj, Bool.beq_eq_decide_eq, bne]

/-- The width itself is a number of the width. -/
theorem toNat_width : (BitVec.ofNat width width).toNat = width :=
  Nat.mod_eq_of_lt Nat.lt_two_pow_self

theorem toNat_le_width (few : count ≤ BitVec.ofNat width width) : count.toNat ≤ width :=
  Nat.le_trans few (Nat.le_of_eq toNat_width)

theorem lt_width (few : count.toNat < width) : count < BitVec.ofNat width width :=
  Nat.lt_of_lt_of_eq few toNat_width.symm

theorem toNat_clz : left.clz.toNat = BitCount.leadingZeros.exact width left.toNat := by
  have few : left.clz.toNat ≤ width := toNat_le_width (left.clzAuxRec_le _)
  refine (Nat.findGreatest_eq_iff.mpr
    ⟨few, fun _ => BitVec.toNat_lt_two_pow_sub_clz, fun count more most less => ?_⟩).symm
  have lead : left ≠ 0 := BitVec.clz_lt_iff_ne_zero.mp (lt_width (by omega))
  have large := BitVec.two_pow_sub_clz_le_toNat_of_ne_zero (by omega) lead
  have power : 2 ^ (width - count) ≤ 2 ^ (width - 1 - left.clz.toNat) :=
    Nat.pow_le_pow_right Nat.two_pos (by omega)
  omega

theorem toNat_ctz : left.ctz.toNat = BitCount.trailingZeros.exact width left.toNat := by
  have few : left.ctz.toNat ≤ width := toNat_le_width (left.reverse.clzAuxRec_le _)
  refine (Nat.findGreatest_eq_iff.mpr ⟨few, fun _ => ?_, fun count more most divides => ?_⟩).symm
  · refine Nat.dvd_of_mod_eq_zero (Nat.eq_of_testBit_eq fun place => ?_)
    rw [Nat.testBit_mod_two_pow, Nat.zero_testBit, Bool.and_eq_false_imp, decide_eq_true_iff]
    exact BitVec.getLsbD_false_of_lt_ctz
  · have trail : left ≠ 0 := BitVec.ctz_lt_iff_ne_zero.mp (lt_width (by omega))
    have one := Nat.testBit_mod_two_pow left.toNat count left.ctz.toNat
    rw [Nat.mod_eq_zero_of_dvd divides, Nat.zero_testBit, decide_eq_true more] at one
    cases one.trans (BitVec.getLsbD_true_ctz_of_ne_zero trail)

theorem toNat_cpop : left.cpop.toNat = BitCount.ones.exact width left.toNat := by
  have counts (below : Nat) :
      left.cpopNatRec below 0 = Nat.count (fun place => left.toNat.testBit place) below := by
    induction below with
    | zero => rfl
    | succ below ih =>
      rw [Nat.count_succ, ← ih, BitVec.cpopNatRec_succ, BitVec.cpopNatRec_eq]
      cases bit : left.getLsbD below <;> simp_all [BitVec.getLsbD]
  exact (BitVec.toNat_cpop left).trans (counts width)

theorem BitCount.toNat_apply (what : BitCount) :
    (what.apply left).toNat = what.exact width left.toNat := by
  cases what with
  | leadingZeros => exact toNat_clz left
  | trailingZeros => exact toNat_ctz left
  | ones => exact toNat_cpop left

/-- A rotation is a sum, since its two parts have no bit in common. -/
theorem rotated_eq {count : Nat} (few : count ≤ width) :
    left.toNat <<< count % 2 ^ width ||| left.toNat >>> (width - count) =
      (left.toNat * 2 ^ count + left.toNat / 2 ^ (width - count)) % 2 ^ width := by
  have power : 2 ^ width = 2 ^ (width - count) * 2 ^ count := by
    rw [← Nat.pow_add, Nat.sub_add_cancel few]
  have high : left.toNat / 2 ^ (width - count) < 2 ^ count :=
    Nat.div_lt_of_lt_mul (power ▸ left.isLt)
  have low : left.toNat * 2 ^ count % 2 ^ width = (left.toNat % 2 ^ (width - count)) <<< count := by
    rw [power, Nat.mul_mod_mul_right, Nat.shiftLeft_eq]
  have small := Nat.or_lt_two_pow (Nat.mod_lt (left.toNat * 2 ^ count) (Nat.two_pow_pos width))
    (Nat.lt_of_le_of_lt (Nat.div_le_self left.toNat (2 ^ (width - count))) left.isLt)
  rw [low, ← Nat.shiftLeft_add_eq_or_of_lt high, ← low] at small
  rw [Nat.shiftLeft_eq, Nat.shiftRight_eq_div_pow, low, ← Nat.shiftLeft_add_eq_or_of_lt high, ← low,
    ← Nat.mod_add_mod, Nat.mod_eq_of_lt small]

variable {left right}

theorem eq_ofInt_of_toNat {number : Nat} (same : left.toNat = number % 2 ^ width) {exact : Int}
    (whole : exact = number) : left = ofInt width exact := by
  rw [whole, BitVec.ofInt_natCast]
  exact eq_of_toNat_eq same

theorem eq_ofInt_toNat (value : BitVec width) : value = ofInt width value.toNat :=
  eq_ofInt_of_toNat (Nat.mod_eq_of_lt value.isLt).symm rfl

theorem IntBinary.apply_eq (wide : 0 < width) (operation : IntBinary) : operation.apply left right =
      (operation.exact width left.toNat right.toNat).map (ofInt width) := by
  have few : right.toNat % width < width := Nat.mod_lt _ wide
  have zero : right = 0 ↔ right.toNat = 0 := by rw [← toNat_inj]; rfl
  cases operation with
  | add | mul => simp [apply, exact, Except.map, ofInt_add, ofInt_mul]
  | sub =>
    simp [apply, exact, Except.map, Int.sub_eq_add_neg, ofInt_add, BitVec.ofInt_neg,
      BitVec.sub_eq_add_neg]
  | div sign =>
    cases sign with simp only [apply, exact, zero]
    | signed =>
      have least : left = BitVec.intMin width ↔
          Sign.signed.reading width left.toNat = -2 ^ (width - 1) := by
        rw [signed_reading, ← toInt_inj, BitVec.toInt_intMin, Nat.mod_eq_of_lt]
        · simp
        · exact Nat.pow_lt_pow_right (by decide) (by omega)
      have minus : right = -1 ↔ Sign.signed.reading width right.toNat = -1 := by
        have ones : (-1 : BitVec width).toInt = -1 := by
          change (-BitVec.ofNat width 1).toInt = -1
          rw [BitVec.neg_one_eq_allOnes, BitVec.toInt_allOnes, if_pos wide]
        rw [signed_reading, ← ones, toInt_inj]
      have whole : left.sdiv right = ofInt width ((Sign.signed.reading width left.toNat).tdiv
          (Sign.signed.reading width right.toNat)) :=
        BitVec.eq_of_toInt_eq (by simp [signed_reading, BitVec.toInt_sdiv])
      simp only [Bool.and_eq_true, decide_eq_true_iff, least, minus, true_and, whole]
      repeat' split
      all_goals rfl
    | unsigned =>
      rw [if_neg (by simp : ¬ (Sign.unsigned = .signed ∧ _))]
      split
      · rfl
      · exact congrArg _ (eq_ofInt_toNat (left / right))
  | rem sign =>
    cases sign with (simp only [apply, exact, zero]; split; rfl)
    | signed => simp [Except.map, signed_reading, ← BitVec.toInt_srem]
    | unsigned => exact congrArg _ (eq_ofInt_toNat (left % right))
  | and | or | xor => exact congrArg _ ((eq_ofInt_toNat _).trans (by simp))
  | shl =>
    exact congrArg _ (eq_ofInt_of_toNat (BitVec.toNat_shiftLeft.trans (by rw [Nat.shiftLeft_eq]))
      (by simp))
  | shr sign =>
    cases sign with
    | signed =>
      have shifted : left.toInt / 2 ^ (right.toNat % width) =
          (left.sshiftRight (right.toNat % width)).toInt := by
        rw [BitVec.toInt_sshiftRight, Int.shiftRight_eq_div_pow]
        rfl
      rw [exact, signed_reading, shifted, Except.map, BitVec.ofInt_toInt]
      rfl
    | unsigned =>
      exact congrArg _
        ((eq_ofInt_toNat _).trans (by simp [Sign.reading, Nat.shiftRight_eq_div_pow]))
  | rotl =>
    have rotated := rotated_eq left (Nat.le_of_lt few)
    rw [← Nat.mod_mod right.toNat, ← BitVec.toNat_rotateLeft] at rotated
    exact congrArg _ (eq_ofInt_of_toNat rotated (by simp))
  | rotr =>
    have rotated := rotated_eq left (Nat.sub_le width (right.toNat % width))
    rw [Nat.sub_sub_self (Nat.le_of_lt few), Nat.or_comm, ← Nat.mod_mod right.toNat,
      ← BitVec.toNat_rotateRight] at rotated
    exact congrArg _ (eq_ofInt_of_toNat rotated (by simp [Int.add_comm]))

/-- Quotient and remainder make up the dividend. -/
theorem IntBinary.quotient_mul_add (wide : 0 < width)
    (divided : IntBinary.apply left right (.div sign) = .ok quotient)
    (rest : IntBinary.apply left right (.rem sign) = .ok remainder) :
    quotient * right + remainder = left := by
  have read (value : BitVec width) : ofInt width (sign.reading width value.toNat) = value := by
    cases sign with
    | signed => rw [signed_reading, BitVec.ofInt_toInt]
    | unsigned => exact (eq_ofInt_toNat value).symm
  rw [apply_eq wide] at divided rest
  simp only [exact] at divided rest
  split at divided
  · cases divided
  rename_i nonzero
  rw [if_neg nonzero] at rest
  split at divided <;> cases divided
  cases rest
  nth_rewrite 2 [← read right]
  rw [← ofInt_mul, ← ofInt_add, Int.mul_comm, Int.mul_tdiv_add_tmod, read]

end

/-- The payload of an integer modulo a power of two. -/
def payloadOf (bits : Nat) (number : Int) : UInt64 := .ofNat (number % 2 ^ bits).toNat

theorem toNat_ofNat_lt (small : bits < 2 ^ 32) : (UInt64.ofNat bits).toNat < 2 ^ 32 :=
  Nat.lt_of_le_of_lt (Nat.mod_le _ _) small

theorem toNat_payloadOf_lt (number : Int) : (payloadOf 32 number).toNat < 2 ^ 32 :=
  toNat_ofNat_lt (by omega)

theorem toNat_read (width : IntWidth) (payload : UInt64) :
    (width.read payload).toNat = payload.toNat % 2 ^ width.bits :=
  BitVec.toNat_setWidth _ _

theorem toNat_write (width : IntWidth) (value : BitVec width.bits) :
    (width.write value).toNat = value.toNat := by
  have small : value.toNat < 2 ^ 64 :=
    Nat.lt_of_lt_of_le value.isLt (Nat.pow_le_pow_right Nat.two_pos (by cases width <;> decide))
  exact (BitVec.toNat_setWidth _ _).trans (Nat.mod_eq_of_lt small)

theorem write_ofInt (width : IntWidth) (number : Int) :
    width.write (ofInt _ number) = payloadOf width.bits number := by
  refine UInt64.ofNat_toNat.symm.trans (congrArg _ ?_)
  rw [toNat_write, BitVec.toNat_ofInt]
  rfl

theorem signExtend_eq (width : Nat) (target : IntWidth) (bits : UInt64) :
    signExtend width target bits = payloadOf target.bits (Int.bmod bits.toNat (2 ^ width)) := by
  rw [signExtend, BitVec.signExtend, write_ofInt, BitVec.toInt_eq_toNat_bmod,
    BitVec.toNat_setWidth, Int.natCast_emod, Int.emod_bmod]
  rfl

theorem payloadOf_natCast (bits number : Nat) :
    payloadOf bits number = .ofNat (number % 2 ^ bits) :=
  congrArg UInt64.ofNat (by norm_cast)

theorem narrow_eq (bits : UInt64) : bits.toUInt32.toUInt64 = .ofNat (bits.toNat % 2 ^ 32) :=
  UInt64.ofNat_toNat.symm

theorem boolPayload_eq (value : Bool) : boolPayload value = payloadOf 32 value.toNat := by
  cases value <;> rfl

section

variable {left right : UInt64}

theorem Operator.eval_of_outcome
    (exact : Operator.outcome? left.toNat right.toNat operator = some outcome) :
    operator.eval left right = outcome.map (payloadOf (32 * operator.result.slots)) := by
  cases operator with
  | eqz width =>
    cases exact
    have zero : (width.read left == 0) = decide (left.toNat % 2 ^ width.bits = 0) := by
      simp [← toNat_read, Bool.beq_eq_decide_eq, ← BitVec.toNat_inj]
    rw [eval, zero, boolPayload_eq]
    rfl
  | compareInt width comparison =>
    cases exact
    rw [eval, IntComparison.holds_eq, boolPayload_eq, toNat_read, toNat_read]
    rfl
  | count width what =>
    cases exact
    rw [eval, eq_ofInt_toNat (what.apply _), BitCount.toNat_apply, toNat_read, write_ofInt]
    cases width <;> rfl
  | binaryInt width operation =>
    cases exact
    rw [eval, IntBinary.apply_eq (by cases width <;> decide), toNat_read, toNat_read]
    cases operation.exact width.bits _ _ with
    | error => rfl
    | ok number => exact congrArg _ ((write_ofInt width number).trans (by cases width <;> rfl))
  | wrap =>
    cases exact
    exact congrArg _ ((narrow_eq left).trans (payloadOf_natCast 32 _).symm)
  | extend sign =>
    cases sign with obtain rfl := Option.some.inj exact
    | signed =>
      rw [eval, signExtend_eq]
      rfl
    | unsigned =>
      have small : left.toNat % 2 ^ 32 < 2 ^ 64 := by omega
      rw [eval, narrow_eq, ← Nat.mod_eq_of_lt small, ← payloadOf_natCast]
      rfl
  | extend8 width | extend16 width =>
    obtain rfl := Option.some.inj exact
    rw [eval, signExtend_eq]
    cases width <;> rfl
  | extend32 =>
    obtain rfl := Option.some.inj exact
    rw [eval, signExtend_eq]
    rfl
  | _ => cases exact

theorem Operator.quotient_mul_add
    (divided : eval (.binaryInt width (.div sign)) left right = .ok quotient)
    (rest : eval (.binaryInt width (.rem sign)) left right = .ok remainder) :
    (quotient.toNat * right.toNat + remainder.toNat) % 2 ^ width.bits =
      left.toNat % 2 ^ width.bits := by
  obtain ⟨quotient, divides, rfl⟩ := map_eq_ok.mp divided
  obtain ⟨remainder, leaves, rfl⟩ := map_eq_ok.mp rest
  have whole := IntBinary.quotient_mul_add (by cases width <;> decide) divides leaves
  have numbers := congrArg BitVec.toNat whole
  rw [BitVec.toNat_add, BitVec.toNat_mul, toNat_read, toNat_read] at numbers
  rw [toNat_write, toNat_write, ← numbers]
  simp

end

/-- An operator on integers gives its exact outcome modulo the width of its kind, or its trap. A
quotient and a remainder make up the dividend. -/
theorem Operator.eval_exact (left right : UInt64) :
    (∀ operator outcome, Operator.outcome? left.toNat right.toNat operator = some outcome →
      operator.eval left right = outcome.map (payloadOf (32 * operator.result.slots))) ∧
    (∀ number, (payloadOf 32 number).toNat < 2 ^ 32) ∧
    ∀ width sign quotient remainder,
      eval (.binaryInt width (.div sign)) left right = .ok quotient →
      eval (.binaryInt width (.rem sign)) left right = .ok remainder →
      (quotient.toNat * right.toNat + remainder.toNat) % 2 ^ width.bits =
        left.toNat % 2 ^ width.bits :=
  ⟨fun _ _ => eval_of_outcome, toNat_payloadOf_lt, fun _ _ _ _ => quotient_mul_add⟩

/-- The remainder of the least number by minus one is zero, where the quotient overflows. -/
theorem Operator.eval_exact_least :
    eval (.binaryInt .w32 (.rem .signed)) 0x80000000 0xffffffff = .ok 0 ∧
      eval (.binaryInt .w32 (.div .signed)) 0x80000000 0xffffffff = .error .integerOverflow :=
  ⟨(eval_exact 0x80000000 0xffffffff).1 _ (.ok 0) (by decide),
    (eval_exact 0x80000000 0xffffffff).1 _ (.error .integerOverflow) (by decide)⟩

end TwinEngine.Numeric
