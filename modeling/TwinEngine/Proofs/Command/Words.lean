import TwinEngine.Command.Argument

/-!
Contract: which words are read as integers, and as which.

Owns: the spelling of an integer as a sign and digits, and that a word is read exactly when it
spells an integer of the signed or the unsigned range of a width.

Digits are read from the left with a check of the range after each of them. No check comes too
early, because further digits only lead away from zero.
-/

namespace TwinEngine.Decimal

def signed : Bool → Nat → Int
  | true, magnitude => -magnitude
  | false, magnitude => magnitude

/-- The number that digits make behind those of another number. -/
def continued (number : Nat) (digits : List Char) : Nat :=
  digits.foldl (fun number digit => 10 * number + (digit.toNat - 48)) number

def IntegerRange.Holds (range : IntegerRange) (number : Int) : Prop :=
  range.low ≤ number ∧ number ≤ range.high

theorem le_continued (number : Nat) (digits : List Char) : number ≤ continued number digits := by
  induction digits generalizing number with
  | nil => exact Nat.le_refl _
  | cons digit digits ih =>
    have more : _ ≤ continued number (digit :: digits) := ih (10 * number + (digit.toNat - 48))
    omega

section

variable {range : IntegerRange} (zero : range.Holds 0) {number : Int}

include zero

/-- A magnitude out of range stays out of range as it grows. -/
theorem holds_signed_of_le (le : less ≤ more) (negative : Bool)
    (inside : range.Holds (signed negative more)) : range.Holds (signed negative less) := by
  obtain ⟨low, high⟩ := zero
  obtain ⟨least, greatest⟩ := inside
  cases negative <;> simp only [IntegerRange.Holds, signed] at * <;> omega

/-- The checks after each digit let through what the check of the last number alone would. -/
theorem readDigits_eq_ok (negative : Bool) (value : Nat) (digits : List Char)
    (inside : range.Holds (signed negative value)) :
    readDigits range negative (signed negative value) digits = .ok number ↔
      (∀ digit ∈ digits, digit.isDigit) ∧ number = signed negative (continued value digits) ∧
        range.Holds number := by
  induction digits generalizing value with
  | nil =>
    constructor
    · intro read
      cases read
      exact ⟨by simp, rfl, inside⟩
    · rintro ⟨-, rfl, -⟩
      rfl
  | cons digit digits ih =>
    have known : digitValue? digit = if digit.isDigit then some (digit.toNat - 48) else none := rfl
    rw [readDigits, known, List.forall_mem_cons]
    by_cases decimal : digit.isDigit
    · have next : (if negative then 10 * signed negative value - (digit.toNat - 48 : Nat)
          else 10 * signed negative value + (digit.toNat - 48 : Nat)) =
          signed negative (10 * value + (digit.toNat - 48)) := by
        cases negative <;> simp [signed] <;> omega
      rw [if_pos decimal]
      dsimp only
      rw [next]
      by_cases holds : range.Holds (signed negative (10 * value + (digit.toNat - 48)))
      · rw [if_neg (Int.not_lt.mpr holds.2), if_neg (Int.not_lt.mpr holds.1), ih _ holds]
        simp [decimal, continued]
      · have outside : ¬ range.Holds (signed negative (continued value (digit :: digits))) :=
          mt (holds_signed_of_le zero (le_continued _ digits) negative) holds
        have refused : ¬ ((digit.isDigit ∧ ∀ digit ∈ digits, digit.isDigit) ∧
            number = signed negative (continued value (digit :: digits)) ∧ range.Holds number) := by
          rintro ⟨-, rfl, inside⟩
          exact outside inside
        refine iff_of_false ?_ refused
        split
        · simp
        · rename_i low
          rw [if_pos (by unfold IntegerRange.Holds at holds; omega)]
          simp
    · simp [decimal]

end

def AreDigits (digits : List Char) : Prop := digits ≠ [] ∧ ∀ digit ∈ digits, digit.isDigit

/-- An integer is spelled by digits, with a sign in front if wanted. -/
inductive Spells : List Char → Int → Prop where
  | plain {digits : List Char} : AreDigits digits → Spells digits (digitsNumber digits)
  | plus {digits : List Char} : AreDigits digits → Spells ('+' :: digits) (digitsNumber digits)
  | minus {digits : List Char} : AreDigits digits → Spells ('-' :: digits) (-digitsNumber digits)

theorem spells_iff (letters : List Char) (number : Int) : Spells letters number ↔
    AreDigits (splitSign letters).2 ∧
      number = signed (splitSign letters).1 (digitsNumber (splitSign letters).2) := by
  constructor
  · rintro (⟨present, decimal⟩ | decimal | decimal)
    · -- A sign is no digit, so nothing is split off.
      have plain : splitSign letters = (false, letters) := by
        unfold splitSign
        split
        · exact absurd (decimal _ List.mem_cons_self) (by decide)
        · exact absurd (decimal _ List.mem_cons_self) (by decide)
        · rfl
      rw [plain]
      exact ⟨⟨present, decimal⟩, rfl⟩
    · exact ⟨decimal, rfl⟩
    · exact ⟨decimal, rfl⟩
  · unfold splitSign
    split <;> rintro ⟨decimal, rfl⟩
    · exact .minus decimal
    · exact .plus decimal
    · exact .plain decimal

theorem readInteger_eq_ok (below : range.low < 0) (above : 0 ≤ range.high) (text : String)
    (number : Int) :
    readInteger range text = .ok number ↔ Spells text.toList number ∧ range.Holds number := by
  have zero : range.Holds 0 := ⟨Int.le_of_lt below, above⟩
  have reads (negative : Bool) (digits : List Char) (present : digits ≠ []) :
      readDigits range negative 0 digits = .ok number ↔
        (AreDigits digits ∧ number = signed negative (digitsNumber digits)) ∧
          range.Holds number := by
    rw [AreDigits, and_iff_right present, and_assoc]
    cases negative <;> exact readDigits_eq_ok zero _ 0 digits zero
  rw [spells_iff]
  unfold readInteger
  generalize text.toList = letters
  split
  · simp [splitSign, AreDigits]
  · simp [splitSign, AreDigits]
  · simp [splitSign, AreDigits]
  · rename_i digits alone
    exact reads _ _ fun empty => alone (by rw [empty])
  · rename_i digits alone
    rw [if_pos below]
    exact reads _ _ fun empty => alone (by rw [empty])
  · rename_i empty _ _ plus minus
    rw [splitSign.eq_3 _ minus plus]
    exact reads _ _ empty

/-- The range of a signed width: a power of two and its negative. -/
theorem readSigned_eq_ok (width : Nat) (text : String) (number : Int) :
    readInteger (.signed width) text = .ok number ↔
      Spells text.toList number ∧ -2 ^ (width - 1) ≤ number ∧ number < 2 ^ (width - 1) := by
  have positive := Nat.two_pow_pos (width - 1)
  rw [readInteger_eq_ok (by simp only [IntegerRange.signed]; omega)
    (by simp only [IntegerRange.signed]; omega)]
  simp only [IntegerRange.Holds, IntegerRange.signed, Int.natCast_pow, Int.cast_ofNat_Int,
    Int.le_sub_one_iff]

end TwinEngine.Decimal

namespace TwinEngine.Command

open Decimal

/-- The signed integer with the bits of one from the signed or the unsigned range. -/
theorem bmod_of_range (positive : 0 < width) :
    (-2 ^ (width - 1) ≤ number → number < 2 ^ (width - 1) → number.bmod (2 ^ width) = number) ∧
      (2 ^ (width - 1) ≤ number → number < 2 ^ width →
        number.bmod (2 ^ width) = number - 2 ^ width) := by
  have double : (2 : Int) ^ width = 2 * 2 ^ (width - 1) := by
    rw [← Int.pow_succ', Nat.sub_add_cancel positive]
  have power : ((2 ^ width : Nat) : Int) = 2 * 2 ^ (width - 1) := double
  refine ⟨fun least most => Int.bmod_eq_of_le (by omega) (by omega), fun least most => ?_⟩
  rw [← Int.sub_bmod_right, power, double]
  exact Int.bmod_eq_of_le (by omega) (by omega)

/-- A word is read exactly when it spells an integer of the signed or the unsigned range, and then
as the signed integer with the same bits. -/
theorem readWord_eq_ok {width : Nat} (positive : 0 < width) (few : width < 128) (text : String)
    (number : Int) : readWord width text = .ok number ↔
      ∃ spelled, Spells text.toList spelled ∧ -2 ^ (width - 1) ≤ spelled ∧
        spelled ≤ 2 ^ width - 1 ∧ number = spelled.bmod (2 ^ width) := by
  have double : (2 : Int) ^ width = 2 * 2 ^ (width - 1) := by
    rw [← Int.pow_succ', Nat.sub_add_cancel positive]
  have wide : (2 : Int) ^ width ≤ 2 ^ 127 :=
    mod_cast Nat.pow_le_pow_right Nat.two_pos (Nat.le_of_lt_succ few)
  unfold readWord
  split
  · rename_i first
    obtain ⟨spells, least, most⟩ := (readSigned_eq_ok _ _ _).mp first
    constructor
    · intro same
      cases same
      exact ⟨_, spells, least, by omega, ((bmod_of_range positive).1 least most).symm⟩
    · rintro ⟨spelled, again, -, -, rfl⟩
      rw [← ((spells_iff _ _).mp spells).2.trans ((spells_iff _ _).mp again).2.symm,
        (bmod_of_range positive).1 least most]
  · rename_i refused
    -- The first reader takes every number below half of the unsigned range.
    have large {spelled : Int} (spells : Spells text.toList spelled)
        (least : -2 ^ (width - 1) ≤ spelled) : 2 ^ (width - 1) ≤ spelled := by
      refine Int.not_lt.mp fun small => ?_
      cases ((readSigned_eq_ok _ _ _).mpr ⟨spells, least, small⟩).symm.trans refused
    constructor
    · intro read
      split at read
      · cases read
      · rename_i spelled second
        split at read <;> cases read
        rename_i fits
        have spells := ((readSigned_eq_ok _ _ _).mp second).1
        have half := large spells (by omega)
        exact ⟨_, spells, by omega, by omega, ((bmod_of_range positive).2 half fits.2).symm⟩
    · rintro ⟨spelled, spells, least, most, rfl⟩
      have half := large spells least
      rw [(readSigned_eq_ok 128 _ _).mpr ⟨spells, by omega, by omega⟩]
      dsimp only
      rw [if_pos ⟨by omega, by omega⟩, (bmod_of_range positive).2 half (by omega)]

theorem readWord_eq_ok_unsigned : readWord 32 "+04294967295" = .ok (-1) :=
  (readWord_eq_ok (by decide) (by decide) _ _).mpr
    ⟨4294967295, .plus ⟨by decide, List.all_eq_true.mp (by decide)⟩, by decide, by decide,
      by decide⟩

end TwinEngine.Command
