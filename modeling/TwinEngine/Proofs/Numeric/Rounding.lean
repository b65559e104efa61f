import TwinEngine.Proofs.Numeric.Ranges

/-!
Contract: rounding keeps what a format can hold, and bit patterns are ordered as their numbers.

Owns: the numbers of units that a format holds, that rounding them, truncating them and moving them
to a wider format loses nothing, and that comparing bit patterns compares units.
-/

namespace TwinEngine.Numeric

namespace FloatFormat

/-- The units of magnitude bits. -/
def unitsOf (format : FloatFormat) (magnitude : Nat) : Nat :=
  if magnitude / 2 ^ format.fractionBits = 0 then magnitude % 2 ^ format.fractionBits
  else (2 ^ format.fractionBits + magnitude % 2 ^ format.fractionBits) *
    2 ^ (magnitude / 2 ^ format.fractionBits - 1)

/-- A number of units has no more significant bits than the fraction and the hidden one. -/
def Fits (format : FloatFormat) (number : Nat) : Prop :=
  2 ^ (number.log2 - format.fractionBits) ∣ number

variable {format : FloatFormat}

theorem magnitude_mod (bits : Nat) :
    format.magnitude bits % 2 ^ format.fractionBits = format.fractionField bits :=
  Nat.mod_mod_of_dvd _ (Nat.pow_dvd_pow 2 (Nat.le_add_left _ _))

theorem units_eq (bits : Nat) : format.units bits = format.unitsOf (format.magnitude bits) := by
  rw [units, unitsOf, magnitude_mod]
  rfl

theorem unitsOf_mul_add (format : FloatFormat) (exponent : Nat) {fraction : Nat}
    (small : fraction < 2 ^ format.fractionBits) :
    format.unitsOf (exponent * 2 ^ format.fractionBits + fraction) = if exponent = 0 then fraction
      else (2 ^ format.fractionBits + fraction) * 2 ^ (exponent - 1) := by
  have high : (exponent * 2 ^ format.fractionBits + fraction) / 2 ^ format.fractionBits =
    exponent := by
    rw [Nat.mul_comm, Nat.mul_add_div (Nat.two_pow_pos _), Nat.div_eq_of_lt small, Nat.add_zero]
  have low : (exponent * 2 ^ format.fractionBits + fraction) % 2 ^ format.fractionBits =
    fraction := by
    rw [Nat.mul_comm, Nat.mul_add_mod, Nat.mod_eq_of_lt small]
  rw [unitsOf, high, low]

/-! ## The order of magnitudes -/

/-- An exponent field bounds the units on both sides. -/
theorem unitsOf_bounds (format : FloatFormat) (magnitude : Nat) :
    (magnitude / 2 ^ format.fractionBits ≠ 0 → 2 ^ format.fractionBits *
      2 ^ (magnitude / 2 ^ format.fractionBits - 1) ≤ format.unitsOf magnitude) ∧
    format.unitsOf magnitude <
      2 ^ format.fractionBits * 2 ^ (magnitude / 2 ^ format.fractionBits) := by
  have small := Nat.mod_lt magnitude (Nat.two_pow_pos format.fractionBits)
  rw [unitsOf]
  generalize magnitude / 2 ^ format.fractionBits = exponent at *
  cases exponent with
  | zero => simpa using small
  | succ exponent =>
    rw [if_neg (Nat.succ_ne_zero _), Nat.add_sub_cancel, Nat.pow_succ, Nat.mul_comm (2 ^ exponent),
      ← Nat.mul_assoc]
    exact ⟨fun _ => Nat.mul_le_mul_right _ (Nat.le_add_right _ _),
      Nat.mul_lt_mul_of_pos_right (by omega) (Nat.two_pow_pos _)⟩

theorem unitsOf_strictMono (format : FloatFormat) : StrictMono format.unitsOf := by
  intro less more below
  have fields : less / 2 ^ format.fractionBits ≤ more / 2 ^ format.fractionBits :=
    Nat.div_le_div_right (Nat.le_of_lt below)
  rcases Nat.lt_or_eq_of_le fields with smaller | same
  · calc format.unitsOf less
        < 2 ^ format.fractionBits * 2 ^ (less / 2 ^ format.fractionBits) :=
          (format.unitsOf_bounds less).2
      _ ≤ 2 ^ format.fractionBits * 2 ^ (more / 2 ^ format.fractionBits - 1) :=
        Nat.mul_le_mul_left _ (Nat.pow_le_pow_right Nat.two_pos (Nat.le_sub_one_of_lt smaller))
      _ ≤ format.unitsOf more := (format.unitsOf_bounds more).1 (Nat.ne_zero_of_lt smaller)
  · have fractions : less % 2 ^ format.fractionBits < more % 2 ^ format.fractionBits := by
      have first := Nat.div_add_mod less (2 ^ format.fractionBits)
      have second := Nat.div_add_mod more (2 ^ format.fractionBits)
      rw [same] at first
      omega
    rw [unitsOf, unitsOf, same]
    split
    · exact fractions
    · exact Nat.mul_lt_mul_of_pos_right (by omega) (Nat.two_pow_pos _)

theorem signedUnits_lt_iff (left right : Nat) : format.signedUnits left < format.signedUnits right ↔
      format.orderKey left < format.orderKey right := by
  have zero : format.unitsOf 0 = 0 := by simp [unitsOf]
  have order := format.unitsOf_strictMono.lt_iff_lt
    (a := format.magnitude left) (b := format.magnitude right)
  have reverse := format.unitsOf_strictMono.lt_iff_lt
    (a := format.magnitude right) (b := format.magnitude left)
  have first := format.unitsOf_strictMono.lt_iff_lt (a := 0) (b := format.magnitude left)
  have second := format.unitsOf_strictMono.lt_iff_lt (a := 0) (b := format.magnitude right)
  rw [signedUnits, signedUnits, orderKey, orderKey, units_eq, units_eq]
  split <;> split <;> omega

/-! ## Rounding -/

theorem roundQuotient_of_dvd (positive : 0 < denominator) (divides : denominator ∣ numerator) :
    roundQuotient numerator denominator = numerator / denominator := by
  simp only [roundQuotient, Nat.mod_eq_zero_of_dvd divides]
  rw [if_neg]
  simp
  omega

/-- Units that fit are rounded to themselves. -/
theorem roundUnits_of_fits (fits : format.Fits number) (positive : 0 < denominator)
    (small : number < format.unitsOf format.infinityBits) :
    format.roundUnits (number * denominator) denominator < format.infinityBits ∧
      format.unitsOf (format.roundUnits (number * denominator) denominator) = number := by
  have divides : denominator * 2 ^ (number.log2 - format.fractionBits) ∣ number * denominator := by
    rw [Nat.mul_comm number]
    exact Nat.mul_dvd_mul_left _ fits
  rw [roundUnits, Nat.mul_div_cancel _ positive,
    roundQuotient_of_dvd (Nat.mul_pos positive (Nat.two_pow_pos _)) divides, Nat.mul_comm number,
    Nat.mul_div_mul_left _ _ positive]
  rw [Fits] at fits
  generalize amount : number.log2 - format.fractionBits = shift at fits ⊢
  obtain ⟨significand, rfl⟩ := fits
  rw [Nat.mul_div_cancel_left _ (Nat.two_pow_pos _)]
  have upper : significand < 2 * 2 ^ format.fractionBits := by
    refine Nat.lt_of_mul_lt_mul_left (Nat.lt_of_lt_of_le (@Nat.lt_log2_self (2 ^ shift * _)) ?_)
    rw [← Nat.pow_succ', ← Nat.pow_add]
    exact Nat.pow_le_pow_right Nat.two_pos (by omega)
  have value : format.unitsOf (shift * 2 ^ format.fractionBits + significand) =
      2 ^ shift * significand := by
    obtain less | more := Nat.lt_or_ge significand (2 ^ format.fractionBits)
    · -- Without the hidden bit, nothing was shifted out.
      have few : (2 ^ shift * significand).log2 < shift + format.fractionBits ∨ shift = 0 := by
        by_cases zero : 2 ^ shift * significand = 0
        · simp_all
        · rw [Nat.log2_lt zero, Nat.pow_add]
          exact .inl (Nat.mul_lt_mul_of_pos_left less (Nat.two_pow_pos _))
      obtain rfl : shift = 0 := by omega
      simpa using format.unitsOf_mul_add 0 less
    · have normal := format.unitsOf_mul_add (shift + 1)
        (show significand - 2 ^ format.fractionBits < 2 ^ format.fractionBits by omega)
      rwa [Nat.succ_mul, Nat.add_assoc, Nat.add_sub_cancel' more, if_neg (Nat.succ_ne_zero _),
        Nat.add_sub_cancel, Nat.mul_comm significand] at normal
  have below : shift * 2 ^ format.fractionBits + significand < format.infinityBits := by
    rwa [← format.unitsOf_strictMono.lt_iff_lt, value]
  rw [Nat.min_eq_left (Nat.le_of_lt below)]
  exact ⟨below, value⟩

/-! ## What fits -/

theorem log2_le_of_lt (below : number < 2 ^ (most + 1)) : number.log2 ≤ most := by
  by_cases zero : number = 0
  · simp [zero]
  · exact Nat.lt_succ_iff.mp ((Nat.log2_lt zero).mpr below)

theorem fits_unitsOf (format : FloatFormat) (magnitude : Nat) :
    format.Fits (format.unitsOf magnitude) := by
  have upper := (format.unitsOf_bounds magnitude).2
  rw [Fits]
  rw [unitsOf] at upper ⊢
  generalize magnitude / 2 ^ format.fractionBits = exponent at upper ⊢
  cases exponent with
  | zero =>
    rw [if_pos rfl] at upper ⊢
    rw [Nat.sub_eq_zero_of_le (log2_le_of_lt ?_)]
    · exact Nat.one_dvd _
    · rw [Nat.pow_succ]
      omega
  | succ exponent =>
    rw [if_neg (Nat.succ_ne_zero _), Nat.add_sub_cancel] at upper ⊢
    rw [← Nat.pow_add, ← Nat.add_assoc] at upper
    refine Nat.dvd_mul_left_of_dvd (Nat.pow_dvd_pow 2 ?_) _
    have := log2_le_of_lt upper
    omega

theorem Fits.truncate (fits : format.Fits number) (bits : Nat) :
    format.Fits (number / 2 ^ bits * 2 ^ bits) := by
  have less : (number / 2 ^ bits * 2 ^ bits).log2 ≤ number.log2 :=
    log2_le_of_lt (Nat.lt_of_le_of_lt (Nat.div_mul_le_self _ _) Nat.lt_log2_self)
  refine Nat.dvd_trans (Nat.pow_dvd_pow 2 (Nat.sub_le_sub_right less _)) ?_
  rcases Nat.le_total (number.log2 - format.fractionBits) bits with few | many
  · exact Nat.dvd_mul_left_of_dvd (Nat.pow_dvd_pow 2 few) _
  · rwa [Nat.div_mul_cancel (Nat.dvd_trans (Nat.pow_dvd_pow 2 many) fits)]

theorem Fits.widen {source target : FloatFormat} (fits : source.Fits number)
    (wider : source.fractionBits ≤ target.fractionBits) (bits : Nat) :
    target.Fits (number * 2 ^ bits) := by
  have most : (number * 2 ^ bits).log2 ≤ number.log2 + bits := by
    refine log2_le_of_lt ?_
    rw [Nat.add_right_comm, Nat.pow_add 2 (number.log2 + 1)]
    exact Nat.mul_lt_mul_of_pos_right Nat.lt_log2_self (Nat.two_pow_pos _)
  refine Nat.dvd_trans (Nat.pow_dvd_pow 2 (n := number.log2 - source.fractionBits + bits) ?_) ?_
  · omega
  · rw [Nat.pow_add]
    exact Nat.mul_dvd_mul_right fits _

/-! ## Numbers that a pattern stands for -/

section Signs

variable {magnitude : Nat} (small : magnitude < format.signBit) (negative : Bool)

include small

theorem magnitude_withSign : format.magnitude (format.withSign negative magnitude) = magnitude := by
  cases negative <;> simp [FloatFormat.magnitude, withSign, Nat.mod_eq_of_lt small]

theorem negative_withSign : format.negative (format.withSign negative magnitude) = negative := by
  have positive : 0 < format.signBit := Nat.two_pow_pos _
  cases negative <;>
    simp [FloatFormat.negative, withSign, Nat.div_eq_of_lt small, Nat.add_div_left _ positive]

end Signs

/-- A pattern stands for so many units, and has a sign. -/
structure Stands (format : FloatFormat) (bits : Nat) (sign : Bool) (count : Nat) : Prop where
  number : ¬ format.isNan bits
  finite : ¬ format.isInfinite bits
  sign : format.negative bits = sign
  units : format.units bits = count

theorem stands_withSign (fits : format.Fits number) (positive : 0 < denominator)
    (small : number < format.unitsOf format.infinityBits) (sign : Bool) :
    format.Stands (format.withSign sign (format.roundUnits (number * denominator) denominator)) sign
      number := by
  obtain ⟨below, same⟩ := roundUnits_of_fits fits positive small
  have room := Nat.lt_trans below format.infinityBits_lt
  refine ⟨?_, ?_, negative_withSign room _, ?_⟩
  · simpa [isNan, magnitude_withSign room] using Nat.le_of_lt below
  · simpa [isInfinite, magnitude_withSign room] using Nat.ne_of_lt below
  · rw [units_eq, magnitude_withSign room, same]

theorem units_lt (number : ¬ format.isNan bits) (finite : ¬ format.isInfinite bits) :
    format.units bits < format.unitsOf format.infinityBits := by
  rw [units_eq]
  refine format.unitsOf_strictMono ?_
  simp only [isNan, isInfinite, decide_eq_true_eq, beq_iff_eq] at number finite
  omega

/-- Truncation within the format keeps the sign, and takes away all but the whole. -/
theorem stands_roundIntegral (number : ¬ format.isNan bits) (finite : ¬ format.isInfinite bits) :
    format.Stands (format.roundIntegral .trunc bits) (format.negative bits)
      (format.units bits / 2 ^ format.scale * 2 ^ format.scale) := by
  have stands := stands_withSign ((format.fits_unitsOf _).truncate _) Nat.one_pos
    (Nat.lt_of_le_of_lt (Nat.div_mul_le_self _ (2 ^ format.scale))
      (units_eq bits ▸ units_lt number finite)) (format.negative bits)
  rw [Nat.mul_one, ← units_eq] at stands
  rw [roundIntegral, if_neg number, if_neg finite, integralMagnitude]
  simpa using stands

/-- A single made a double keeps its number. -/
theorem stands_convert (number : ¬ single.isNan bits) (finite : ¬ single.isInfinite bits) :
    double.Stands (convert .single .double bits) (single.negative bits)
      (single.units bits * 2 ^ (double.scale - single.scale)) := by
  have range : single.unitsOf single.infinityBits * 2 ^ (double.scale - single.scale) ≤
      double.unitsOf double.infinityBits := by
    decide +kernel
  have small := Nat.lt_of_lt_of_le
    (Nat.mul_lt_mul_of_pos_right (units_lt number finite) (Nat.two_pow_pos _)) range
  have fits : double.Fits (single.units bits * 2 ^ (double.scale - single.scale)) := by
    rw [units_eq]
    exact (single.fits_unitsOf _).widen (by decide) _
  have stands := stands_withSign fits (Nat.two_pow_pos single.scale) small (single.negative bits)
  rw [Nat.mul_assoc, ← Nat.pow_add, Nat.sub_add_cancel (by decide)] at stands
  rwa [convert, if_neg number, if_neg finite]

end FloatFormat

end TwinEngine.Numeric
