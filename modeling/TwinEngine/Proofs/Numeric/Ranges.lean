import Mathlib.Data.Nat.Bitwise
import TwinEngine.Proofs.Numeric.Integers

/-!
Contract: results of numeric operators stay within the width of their kind.

Owns: that operations on bit patterns give bit patterns of the format, and that evaluation gives a
payload of 32 bits where the kind of the result has 32.

Does not own: what the operators compute (`Numeric.Evaluation`).
-/

namespace TwinEngine.Numeric

/-! ## Bit patterns -/

namespace FloatFormat

def patterns (format : FloatFormat) : Nat := 2 ^ (format.exponentBits + format.fractionBits + 1)

variable {format : FloatFormat}

theorem patterns_eq (format : FloatFormat) : format.patterns = 2 * format.signBit := by
  rw [patterns, signBit, Nat.pow_succ, Nat.mul_comm]

theorem lt_patterns {magnitude : Nat} (small : magnitude < format.signBit) :
    magnitude < format.patterns := by
  rw [patterns_eq]
  omega

theorem withSign_lt (negative : Bool) {magnitude : Nat} (small : magnitude < format.signBit) :
    format.withSign negative magnitude < format.patterns := by
  rw [patterns_eq, withSign]
  split <;> omega

theorem magnitude_lt (format : FloatFormat) (bits : Nat) : format.magnitude bits < format.signBit :=
  Nat.mod_lt _ (Nat.two_pow_pos _)

theorem infinityBits_lt (format : FloatFormat) : format.infinityBits < format.signBit := by
  rw [infinityBits, signBit, Nat.pow_add]
  exact Nat.mul_lt_mul_of_pos_right (Nat.sub_lt (Nat.two_pow_pos _) Nat.one_pos)
    (Nat.two_pow_pos _)

theorem roundUnits_lt (format : FloatFormat) (numerator denominator : Nat) :
    format.roundUnits numerator denominator < format.signBit :=
  Nat.lt_of_le_of_lt (Nat.min_le_right _ _) format.infinityBits_lt

theorem roundSigned_lt (format : FloatFormat) (zeroNegative : Bool) (total : Int) :
    format.roundSigned zeroNegative total < format.patterns := by
  unfold roundSigned
  split
  · exact withSign_lt _ (Nat.two_pow_pos _)
  · exact withSign_lt _ (format.roundUnits_lt _ _)

/-- A NaN with a payload in its fraction, which must have room for the quiet bit. -/
theorem infinityBits_add_lt (small : payload < 2 ^ format.fractionBits) :
    format.infinityBits + payload < format.signBit := by
  have total : format.infinityBits + 2 ^ format.fractionBits = format.signBit := by
    rw [infinityBits, signBit, Nat.pow_add, ← Nat.succ_mul, Nat.succ_eq_add_one,
      Nat.sub_add_cancel (Nat.two_pow_pos _)]
  omega

section Fraction

variable (room : 0 < format.fractionBits)

include room

theorem quietBit_lt : format.quietBit < 2 ^ format.fractionBits :=
  Nat.pow_lt_pow_right (by decide) (Nat.sub_lt room Nat.one_pos)

theorem canonicalNan_lt : format.canonicalNan < format.signBit :=
  infinityBits_add_lt (quietBit_lt room)

theorem invalid_lt : format.invalid < format.patterns := withSign_lt _ (canonicalNan_lt room)

theorem quiet_lt (small : bits < format.patterns) : format.quiet bits < format.patterns := by
  refine Nat.or_lt_two_pow small (Nat.lt_trans (quietBit_lt room) ?_)
  exact Nat.pow_lt_pow_right (by decide) (by omega)

section

variable (leftSmall : left < format.patterns) (rightSmall : right < format.patterns)

include leftSmall rightSmall

theorem propagated_getD_lt (small : result < format.patterns) :
    (format.propagated left right).getD result < format.patterns := by
  unfold propagated
  split
  · exact quiet_lt room leftSmall
  · split
    · exact quiet_lt room rightSmall
    · exact small

theorem addNumbers_lt : format.addNumbers left right < format.patterns := by
  unfold addNumbers
  split
  · split
    · exact invalid_lt room
    · exact leftSmall
  · split
    · exact rightSmall
    · exact format.roundSigned_lt _ _

end

theorem mulNumbers_lt (left right : Nat) : format.mulNumbers left right < format.patterns := by
  unfold mulNumbers
  repeat' split
  · exact invalid_lt room
  · exact withSign_lt _ format.infinityBits_lt
  · exact withSign_lt _ (format.roundUnits_lt _ _)

theorem divNumbers_lt (left right : Nat) : format.divNumbers left right < format.patterns := by
  unfold divNumbers
  repeat' split
  all_goals
    first
    | exact invalid_lt room
    | exact withSign_lt _ format.infinityBits_lt
    | exact withSign_lt _ (Nat.two_pow_pos _)
    | exact withSign_lt _ (format.roundUnits_lt _ _)

theorem lt_of_binary (operation : FloatBinary) (leftSmall : left < format.patterns)
    (rightSmall : right < format.patterns) :
    operation.apply format left right < format.patterns := by
  have positive : format.canonicalNan < format.patterns := lt_patterns (canonicalNan_lt room)
  cases operation with
  | add =>
    exact propagated_getD_lt room leftSmall rightSmall (addNumbers_lt room leftSmall rightSmall)
  | sub =>
    exact propagated_getD_lt room leftSmall rightSmall
      (addNumbers_lt room leftSmall (withSign_lt _ (format.magnitude_lt _)))
  | mul => exact propagated_getD_lt room leftSmall rightSmall (mulNumbers_lt room _ _)
  | div => exact propagated_getD_lt room leftSmall rightSmall (divNumbers_lt room _ _)
  | min =>
    simp only [FloatBinary.apply, FloatFormat.min]
    repeat' split
    · exact positive
    · exact Nat.or_lt_two_pow leftSmall rightSmall
    · exact leftSmall
    · exact rightSmall
  | max =>
    simp only [FloatBinary.apply, FloatFormat.max]
    repeat' split
    · exact positive
    · exact Nat.and_lt_two_pow _ rightSmall
    · exact rightSmall
    · exact leftSmall
  | copysign => exact withSign_lt _ (format.magnitude_lt _)

theorem lt_of_unary (operation : FloatUnary) (small : bits < format.patterns) :
    operation.apply format bits < format.patterns := by
  cases operation with
  | abs => exact lt_patterns (format.magnitude_lt _)
  | neg => exact withSign_lt _ (format.magnitude_lt _)
  | integral =>
    simp only [FloatUnary.apply, roundIntegral]
    repeat' split
    · exact quiet_lt room small
    · exact small
    · exact withSign_lt _ (format.roundUnits_lt _ _)
  | sqrt =>
    simp only [FloatUnary.apply, sqrt]
    repeat' split
    · exact quiet_lt room small
    · exact small
    · exact invalid_lt room
    · exact small
    · exact lt_patterns (format.roundUnits_lt _ _)

end Fraction

theorem convert_lt (bits : Nat) (room : 0 < target.fractionBits) :
    convert source target bits < target.patterns := by
  refine withSign_lt _ ?_
  split
  · refine infinityBits_add_lt (Nat.or_lt_two_pow ?_ (quietBit_lt room))
    rw [Nat.div_lt_iff_lt_mul (Nat.two_pow_pos _), Nat.mul_comm]
    exact Nat.mul_lt_mul_of_pos_left (Nat.mod_lt _ (Nat.two_pow_pos _)) (Nat.two_pow_pos _)
  · split
    · exact target.infinityBits_lt
    · exact target.roundUnits_lt _ _

end FloatFormat

/-! ## Payloads -/

theorem toNat_write_lt (value : BitVec IntWidth.w32.bits) :
    (IntWidth.w32.write value).toNat < 2 ^ 32 := by
  rw [toNat_write]
  exact value.isLt

theorem boolPayload_lt (value : Bool) : (boolPayload value).toNat < 2 ^ 32 := by
  cases value <;> decide

theorem FloatWidth.read_lt (width : FloatWidth) (payload : UInt64) :
    width.read payload < width.format.patterns := by
  cases width with
  | w32 => exact payload.toUInt32.toNat_lt
  | w64 => exact payload.toNat_lt

theorem FloatWidth.fractionBits_pos (width : FloatWidth) : 0 < width.format.fractionBits := by
  cases width <;> decide

/-- An operator whose result has 32 bits gives a payload of 32 bits, if its first operand is a
payload of its kind. -/
theorem Operator.toNat_eval_lt {operator : Operator} {left right result : UInt64}
    (narrow : operator.result.slots = 1)
    (operand : ∀ kind ∈ operator.params.head?, kind.slots = 1 → left.toNat < 2 ^ 32)
    (evaluated : operator.eval left right = .ok result) : result.toNat < 2 ^ 32 := by
  cases operator with
  | eqz | compareInt | compareFloat =>
    cases evaluated
    exact boolPayload_lt _
  | count width | extend8 width | extend16 width | saturate width =>
    cases width with
    | w32 =>
      cases evaluated
      exact toNat_write_lt _
    | w64 => cases narrow
  | binaryInt width operation | truncate width =>
    cases width with
    | w32 =>
      obtain ⟨_, _, rfl⟩ := map_eq_ok.mp evaluated
      exact toNat_write_lt _
    | w64 => cases narrow
  | unaryFloat width operation =>
    cases width with
    | w32 =>
      cases evaluated
      exact toNat_ofNat_lt (FloatFormat.lt_of_unary (FloatWidth.fractionBits_pos .w32) _
        (FloatWidth.read_lt .w32 _))
    | w64 => cases narrow
  | binaryFloat width operation =>
    cases width with
    | w32 =>
      cases evaluated
      exact toNat_ofNat_lt (FloatFormat.lt_of_binary (FloatWidth.fractionBits_pos .w32) _
        (FloatWidth.read_lt .w32 _) (FloatWidth.read_lt .w32 _))
    | w64 => cases narrow
  | wrap =>
    cases evaluated
    exact left.toUInt32.toNat_lt
  | convert width =>
    cases width with
    | w32 =>
      cases evaluated
      exact toNat_ofNat_lt (FloatFormat.roundSigned_lt .single _ _)
    | w64 => cases narrow
  | demote =>
    cases evaluated
    exact toNat_ofNat_lt (FloatFormat.convert_lt _ (FloatWidth.fractionBits_pos .w32))
  | bitsOfFloat width | floatOfBits width =>
    cases width with
    | w32 =>
      cases evaluated
      exact operand _ rfl rfl
    | w64 => cases narrow
  | extend | extend32 | promote => cases narrow

end TwinEngine.Numeric
