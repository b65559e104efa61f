import Mathlib.Data.Rat.Floor
import Mathlib.Tactic.FieldSimp
import TwinEngine.Proofs.Numeric.Rounding

/-!
Contract: truncation of floating-point numbers to integers is exact.

Owns: the rational number that a bit pattern stands for, and what the trapping and the saturating
operators make of it.
-/

namespace TwinEngine.Numeric

namespace FloatFormat

def IsNan (format : FloatFormat) (bits : Nat) : Prop :=
  format.exponentField bits = 2 ^ format.exponentBits - 1 ∧ format.fractionField bits ≠ 0

def IsInfinite (format : FloatFormat) (bits : Nat) : Prop :=
  format.exponentField bits = 2 ^ format.exponentBits - 1 ∧ format.fractionField bits = 0

def absoluteValue (format : FloatFormat) (bits : Nat) : ℚ :=
  let bias : ℤ := 2 ^ (format.exponentBits - 1) - 1
  let fraction : ℚ := format.fractionField bits / 2 ^ format.fractionBits
  if format.exponentField bits = 0 then fraction * 2 ^ (1 - bias)
  else (1 + fraction) * 2 ^ (format.exponentField bits - bias)

/-- The number for which a bit pattern stands that is neither infinite nor a NaN. -/
def value (format : FloatFormat) (bits : Nat) : ℚ :=
  if format.negative bits then -format.absoluteValue bits else format.absoluteValue bits

end FloatFormat

/-- Round toward zero. -/
def towardZero (number : ℚ) : ℤ := if number < 0 then ⌈number⌉ else ⌊number⌋

namespace FloatFormat

variable {format : FloatFormat} (bits : Nat)

theorem magnitude_eq : format.magnitude bits =
    format.exponentField bits * 2 ^ format.fractionBits + format.fractionField bits := by
  rw [exponentField, ← magnitude_mod, Nat.div_add_mod']

/-- The exponent field is full exactly from the bits of infinity on. -/
theorem infinityBits_le_iff : format.infinityBits ≤ format.magnitude bits ↔
    format.exponentField bits = 2 ^ format.exponentBits - 1 := by
  have most : format.exponentField bits < 2 ^ format.exponentBits := by
    refine Nat.div_lt_of_lt_mul ?_
    rw [Nat.mul_comm, ← Nat.pow_add]
    exact Nat.mod_lt _ (Nat.two_pow_pos _)
  rw [infinityBits, ← Nat.le_div_iff_mul_le (Nat.two_pow_pos _), ← exponentField]
  omega

theorem magnitude_of_full (full : format.exponentField bits = 2 ^ format.exponentBits - 1) :
    format.magnitude bits = format.infinityBits + format.fractionField bits := by
  rw [magnitude_eq, full]
  rfl

theorem isNan_iff : format.isNan bits ↔ format.IsNan bits := by
  rw [isNan, decide_eq_true_iff, IsNan]
  constructor
  · intro above
    have full := (infinityBits_le_iff bits).mp (Nat.le_of_lt above)
    rw [magnitude_of_full bits full] at above
    exact ⟨full, by omega⟩
  · rintro ⟨full, nonzero⟩
    rw [magnitude_of_full bits full]
    omega

theorem isInfinite_iff : format.isInfinite bits ↔ format.IsInfinite bits := by
  rw [isInfinite, beq_iff_eq, IsInfinite]
  constructor
  · intro same
    have full := (infinityBits_le_iff bits).mp (Nat.le_of_eq same.symm)
    rw [magnitude_of_full bits full] at same
    exact ⟨full, by omega⟩
  · rintro ⟨full, zero⟩
    rw [magnitude_of_full bits full, zero]
    rfl

theorem absoluteValue_eq (exponents : 2 ≤ format.exponentBits) :
    format.absoluteValue bits = format.units bits / 2 ^ format.scale := by
  obtain ⟨bias, power⟩ := Nat.exists_eq_add_of_le' (Nat.pow_le_pow_right Nat.two_pos
    (Nat.le_sub_of_add_le exponents) : 2 ^ 1 ≤ 2 ^ (format.exponentBits - 1))
  have integer : (2 : ℤ) ^ (format.exponentBits - 1) - 1 = bias + 1 := by
    rw [show (2 : ℤ) ^ (format.exponentBits - 1) = bias + 2 from mod_cast power]
    ring
  have scale : format.scale = bias + format.fractionBits := by
    rw [FloatFormat.scale, power]
    rfl
  simp only [absoluteValue, integer, scale, units, spacing]
  cases format.exponentField bits with
  | zero =>
    rw [if_pos rfl, if_pos rfl, show (1 - (bias + 1) : ℤ) = -bias by ring, zpow_neg, zpow_natCast,
      pow_add]
    field_simp
  | succ exponent =>
    rw [if_neg (Nat.succ_ne_zero _), if_neg (Nat.succ_ne_zero _), Nat.add_sub_cancel]
    push_cast
    rw [add_sub_add_right_eq_sub, zpow_sub₀ two_ne_zero, zpow_natCast, zpow_natCast, pow_add]
    field_simp

theorem truncated_eq (exponents : 2 ≤ format.exponentBits) :
    format.truncated bits = towardZero (format.value bits) := by
  have whole : ⌊format.absoluteValue bits⌋ = (format.units bits / 2 ^ format.scale : Nat) := by
    have floor := Rat.floor_intCast_div_natCast (format.units bits) (2 ^ format.scale)
    rw [absoluteValue_eq bits exponents]
    push_cast at floor ⊢
    exact floor
  have positive : 0 ≤ format.absoluteValue bits := by
    rw [absoluteValue_eq bits exponents]
    positivity
  rw [value, truncated, ← whole, towardZero]
  split
  · split
    · rw [Int.ceil_neg]
    · have zero : format.absoluteValue bits = 0 := by linarith
      rw [zero, neg_zero, Int.floor_zero, neg_zero]
  · rw [if_neg (not_lt.mpr positive)]

end FloatFormat

theorem inRange_iff (width : IntWidth) (sign : Sign) (number : Int) :
    width.inRange sign number ↔ width.least sign ≤ number ∧ number ≤ width.greatest sign := by
  cases sign <;>
    simp only [IntWidth.inRange, IntWidth.least, IntWidth.greatest, Int.le_sub_one_iff,
      Bool.and_eq_true, decide_eq_true_eq]

theorem least_le_zero (width : IntWidth) (sign : Sign) :
    width.least sign ≤ 0 ∧ 0 ≤ width.greatest sign := by
  cases width <;> cases sign <;> decide

section

variable {target : IntWidth} {format : FloatFormat} {sign : Sign} {bits : Nat}

/-- A number out of range lies beyond the end on its own side. -/
theorem saturated_of_outside (finite : ¬ format.isNan bits)
    (outside : format.isInfinite bits ∨ ¬ target.inRange sign (format.truncated bits)) :
    saturated target format sign bits =
      if format.negative bits then target.least sign else target.greatest sign := by
  rw [saturated, if_neg finite]
  split
  · rfl
  · rename_i bounded
    rw [inRange_iff] at outside
    have ends := least_le_zero target sign
    have beyond := outside.resolve_left bounded
    rw [FloatFormat.truncated] at beyond ⊢
    generalize format.units bits / 2 ^ format.scale = whole at beyond ⊢
    cases side : format.negative bits <;> simp only [side, if_true, Bool.false_eq_true, if_false]
      at beyond ⊢
    · rw [min_eq_left (by omega), max_eq_right (by omega)]
    · rw [min_eq_right (by omega), max_eq_left (by omega)]

theorem saturated_of_inside (finite : ¬ format.isNan bits) (bounded : ¬ format.isInfinite bits)
    (inside : target.inRange sign (format.truncated bits)) :
    saturated target format sign bits = format.truncated bits := by
  rw [saturated, if_neg finite, if_neg bounded]
  rw [inRange_iff] at inside
  omega

end

/-! ## Comparisons with bounds -/

open FloatFormat

/-- A pattern stands for an integer, or is infinite and of the order of one. -/
abbrev FloatFormat.Whole (format : FloatFormat) (bits : Nat) (number : Int) : Prop :=
  ¬ format.isNan bits ∧ format.signedUnits bits = number * (2 ^ format.scale : Nat)

/-- Integers are compared as such. -/
theorem compare_iff {format : FloatFormat} {left right : Nat} {number bound : Int}
    (whole : format.Whole left number) (bounded : format.Whole right bound) :
    (format.lt left right ↔ number < bound) ∧ (format.le left right ↔ number ≤ bound) := by
  have positive : (0 : Int) < (2 ^ format.scale : Nat) := Int.natCast_pos.mpr (Nat.two_pow_pos _)
  have less : format.orderKey left < format.orderKey right ↔ number < bound := by
    rw [← signedUnits_lt_iff, whole.2, bounded.2, Int.mul_lt_mul_right positive]
  have more : format.orderKey right < format.orderKey left ↔ bound < number := by
    rw [← signedUnits_lt_iff, whole.2, bounded.2, Int.mul_lt_mul_right positive]
  simp [FloatFormat.lt, FloatFormat.le, ordered, whole.1, bounded.1]
  omega

/-- Two comparisons find the integers out of range: each is with the end or with the integer
beyond, and the format has that number. -/
abbrev Bounds (target : IntWidth) (format : FloatFormat) (sign : Sign)
    (below above : FloatComparison × Int) : Prop :=
  format.Whole (format.ofInt below.2) below.2 ∧ format.Whole (format.ofInt above.2) above.2 ∧
    (below = (.lt, target.least sign) ∨ below = (.le, target.least sign - 1)) ∧
    (above = (.gt, target.greatest sign) ∨ above = (.ge, target.greatest sign + 1))

/-- A number is truncated where its whole is in range. -/
def truncation (target : IntWidth) (format : FloatFormat) (sign : Sign) (bits : Nat) :
    Except Trap (BitVec target.bits) :=
  if format.isNan bits then .error .invalidConversion
  else if format.isInfinite bits ∨ ¬ target.inRange sign (format.truncated bits) then
    .error .integerOverflow
  else .ok (BitVec.ofInt target.bits (format.truncated bits))

section

variable {target : IntWidth} {sign : Sign} {below above : FloatComparison × Int} {bits : Nat}

theorem outside_iff {format : FloatFormat} {whole : Nat} {number : Int}
    (bounds : Bounds target format sign below above) (stands : format.Whole whole number) :
    (below.1.holds format whole (format.ofInt below.2) ||
        above.1.holds format whole (format.ofInt above.2)) = true ↔
      ¬ target.inRange sign number := by
  obtain ⟨least, greatest, first, last⟩ := bounds
  have low := compare_iff stands least
  have high := compare_iff greatest stands
  rw [inRange_iff]
  rcases first with rfl | rfl <;> rcases last with rfl | rfl <;>
    simp only [FloatComparison.holds, Bool.or_eq_true, low, high] <;> omega

/-- An infinity is compared as an integer beyond every range. -/
theorem exists_beyond (source : FloatWidth) (infinite : source.format.isInfinite bits) :
    ∃ number : Int, source.format.Whole bits number ∧ ¬ target.inRange sign number := by
  obtain ⟨most, far, whole⟩ : ∃ most, 2 ^ 64 ≤ most ∧
      source.format.unitsOf source.format.infinityBits = most * 2 ^ source.format.scale := by
    cases source with
    | w32 => exact ⟨2 ^ 128, by decide, by decide +kernel⟩
    | w64 => exact ⟨2 ^ 1024, by decide +kernel, by decide +kernel⟩
  rw [isInfinite, beq_iff_eq] at infinite
  refine ⟨if source.format.negative bits then -most else most, ⟨?_, ?_⟩, ?_⟩
  · simp [isNan, infinite]
  · rw [signedUnits, units_eq, infinite, whole]
    split <;> simp
  · rw [inRange_iff]
    have ends : -(2 ^ 64 : Int) < target.least sign ∧ target.greatest sign < (2 ^ 64 : Int) := by
      cases target <;> cases sign <;> decide
    have : (2 ^ 64 : Int) ≤ most := mod_cast far
    split <;> omega

theorem truncateUnless_eq (source : FloatWidth)
    (bounds : Bounds target source.format sign below above) :
    truncateUnless target source.format sign below above bits =
      truncation target source.format sign bits := by
  rw [truncateUnless, truncation]
  split
  · rfl
  · rename_i number
    by_cases infinite : source.format.isInfinite bits
    · obtain ⟨_, stands, outside⟩ := exists_beyond source infinite
      simp only [roundIntegral, if_neg number, infinite, true_or, if_true]
      exact if_pos ((outside_iff bounds stands).mpr outside)
    · have stands := stands_roundIntegral number infinite
      generalize source.format = format at *
      generalize format.roundIntegral .trunc bits = whole at stands ⊢
      have same : format.truncated whole = format.truncated bits := by
        rw [truncated, truncated, stands.sign, stands.units, Nat.mul_div_cancel _
          (Nat.two_pow_pos _)]
      have integral : format.signedUnits whole =
        format.truncated bits * (2 ^ format.scale : Nat) := by
        rw [signedUnits, truncated, stands.sign, stands.units]
        split <;> simp
      have outside := outside_iff bounds ⟨stands.number, integral⟩
      by_cases inside : target.inRange sign (format.truncated bits)
      · rw [if_neg (by simpa [inside] using outside), if_neg (by simp [infinite, inside]),
          saturated_of_inside stands.number stands.finite (same ▸ inside), same]
      · rw [if_pos (outside.mpr inside), if_pos (.inr inside)]

/-- Making a single a double changes nothing in its truncation. -/
theorem truncation_convert : truncation target .double sign (convert .single .double bits) =
    truncation target .single sign bits := by
  by_cases number : single.isNan bits
  · have payload : convertPayload .single .double (single.fractionField bits) <
        2 ^ double.fractionBits := by
      refine Nat.or_lt_two_pow ?_ (by decide)
      rw [Nat.div_lt_iff_lt_mul (Nat.two_pow_pos _), Nat.mul_comm]
      exact Nat.mul_lt_mul_of_pos_left (Nat.mod_lt _ (Nat.two_pow_pos _)) (Nat.two_pow_pos _)
    have quiet : 0 < convertPayload .single .double (single.fractionField bits) :=
      Nat.lt_of_lt_of_le (by decide : 0 < double.quietBit) Nat.right_le_or
    have also : double.isNan (convert .single .double bits) := by
      rw [isNan, convert, if_pos number, magnitude_withSign (infinityBits_add_lt payload),
        decide_eq_true_iff]
      omega
    rw [truncation, truncation, if_pos number, if_pos also]
  · by_cases infinite : single.isInfinite bits
    · have magnitude : double.magnitude (convert .single .double bits) = double.infinityBits := by
        rw [convert, if_neg number, if_pos infinite]
        exact magnitude_withSign double.infinityBits_lt _
      have also : double.isInfinite (convert .single .double bits) := beq_iff_eq.mpr magnitude
      have ordered : ¬ double.isNan (convert .single .double bits) := by simp [isNan, magnitude]
      rw [truncation, truncation, if_neg number, if_neg ordered, if_pos (.inl also),
        if_pos (.inl infinite)]
    · have stands := stands_convert number infinite
      have same : double.truncated (convert .single .double bits) = single.truncated bits := by
        rw [truncated, truncated, stands.sign, stands.units,
          ← Nat.sub_add_cancel (show single.scale ≤ double.scale by decide), Nat.pow_add,
          Nat.add_sub_cancel, Nat.mul_comm, Nat.mul_div_mul_left _ _ (Nat.two_pow_pos _)]
      simp only [truncation, number, infinite, stands.number, stands.finite, same]

/-- Every comparison of a truncated number is with bounds of its range. -/
theorem truncate_eq (target : IntWidth) (source : FloatWidth) (sign : Sign) (bits : Nat) :
    truncate target source sign bits = truncation target source.format sign bits := by
  have signed (bits : Nat) : truncateDoubleToSigned64 bits = truncation .w64 .double .signed bits :=
    truncateUnless_eq .w64 (by decide +kernel)
  have unsigned (bits : Nat) :
      truncateDoubleToUnsigned64 bits = truncation .w64 .double .unsigned bits :=
    truncateUnless_eq .w64 (by decide +kernel)
  match target, source, sign with
  | .w32, .w32, .signed | .w32, .w32, .unsigned => exact truncateUnless_eq .w32 (by decide +kernel)
  | .w32, .w64, .signed | .w32, .w64, .unsigned => exact truncateUnless_eq .w64 (by decide +kernel)
  | .w64, .w32, .signed => exact (signed _).trans truncation_convert
  | .w64, .w32, .unsigned => exact (unsigned _).trans truncation_convert
  | .w64, .w64, .signed => exact signed bits
  | .w64, .w64, .unsigned => exact unsigned bits

end

/-- A number is truncated toward zero if the result is in range. If not, one operator traps and the
other gives the end of the range on the side of the number. -/
theorem truncation_exact (target : IntWidth) (source : FloatWidth) (sign : Sign)
    (left right : UInt64) :
    let format := source.format
    let bits := source.read left
    let whole := towardZero (format.value bits)
    let outside := format.IsInfinite bits ∨ whole < target.least sign ∨ target.greatest sign < whole
    let trapping := Operator.eval (.truncate target source sign) left right
    let saturating := Operator.eval (.saturate target source sign) left right
    (format.IsNan bits → trapping = .error .invalidConversion ∧ saturating = .ok 0) ∧
      (¬ format.IsNan bits → outside → trapping = .error .integerOverflow ∧
        saturating = .ok (payloadOf target.bits
          (if format.negative bits then target.least sign else target.greatest sign))) ∧
      (¬ format.IsNan bits → ¬ outside →
        trapping = .ok (payloadOf target.bits whole) ∧ saturating = trapping) := by
  intro format bits whole outside trapping saturating
  have exact : format.truncated bits = whole := truncated_eq bits (by cases source <;> decide)
  have outside_iff :
      outside ↔ format.isInfinite bits ∨ ¬ target.inRange sign (format.truncated bits) := by
    rw [inRange_iff, exact, not_and_or, not_le, not_le, isInfinite_iff]
  have traps : trapping = target.write <$> truncation target format sign bits :=
    congrArg (target.write <$> ·) (truncate_eq target source sign bits)
  have saturates : saturating = .ok (payloadOf target.bits (saturated target format sign bits)) :=
    congrArg Except.ok (write_ofInt _ _)
  rw [traps, saturates, outside_iff, ← isNan_iff, truncation]
  refine ⟨fun nan => ?_, fun finite outside => ?_, fun finite inside => ?_⟩
  · rw [saturated, if_pos nan, if_pos nan]
    cases target <;> exact ⟨rfl, rfl⟩
  · rw [if_neg finite, if_pos outside, saturated_of_outside finite outside]
    exact ⟨rfl, rfl⟩
  · rw [if_neg finite, if_neg inside, exact]
    rw [not_or, not_not] at inside
    rw [saturated_of_inside finite inside.1 inside.2, exact]
    have written := congrArg (Except.ok (ε := Trap)) (write_ofInt target whole)
    exact ⟨written, written.symm⟩

end TwinEngine.Numeric
