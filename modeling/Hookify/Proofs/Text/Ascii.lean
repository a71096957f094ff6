import Hookify.Text.Case
import Hookify.Text.Segments
import Mathlib.Data.List.Flatten

namespace Hookify
namespace Text

/-!
# ASCII letters and digits

The classes of characters by their codes, and the count of letters in a text.
The count is what tells generated names from the text around them: a text does
not contain a name with more letters than it has itself.
-/

/-! ## Classes by code -/

theorem toNat_ofNat {code : Nat} (valid : code.isValidChar) : (Char.ofNat code).toNat = code := by
  rw [Char.ofNat, dif_pos valid]
  rfl

theorem char_le_iff (first second : Char) : first ≤ second ↔ first.toNat ≤ second.toNat := by
  rw [Char.le_def, UInt32.le_iff_toNat_le]
  rfl

theorem isAsciiLetter_iff (c : Char) : isAsciiLetter c = true ↔
    (97 ≤ c.toNat ∧ c.toNat ≤ 122) ∨ (65 ≤ c.toNat ∧ c.toNat ≤ 90) := by
  simp [isAsciiLetter, char_le_iff]

theorem isAsciiDigit_iff (c : Char) : isAsciiDigit c = true ↔ 48 ≤ c.toNat ∧ c.toNat ≤ 57 := by
  simp [isAsciiDigit, char_le_iff]

theorem toNat_asciiUpperChar (c : Char) : (asciiUpperChar c).toNat =
    if 97 ≤ c.toNat ∧ c.toNat ≤ 122 then c.toNat - 32 else c.toNat := by
  have small : ('a' ≤ c && c ≤ 'z') = true ↔ 97 ≤ c.toNat ∧ c.toNat ≤ 122 := by
    simp [char_le_iff]
  rw [asciiUpperChar]
  by_cases range : 97 ≤ c.toNat ∧ c.toNat ≤ 122
  · rw [if_pos (small.mpr range), if_pos range, toNat_ofNat (Or.inl (by omega))]
  · rw [if_neg (mt small.mp range), if_neg range]

theorem toNat_asciiLowerChar (c : Char) : (asciiLowerChar c).toNat =
    if 65 ≤ c.toNat ∧ c.toNat ≤ 90 then c.toNat + 32 else c.toNat := by
  have capital : ('A' ≤ c && c ≤ 'Z') = true ↔ 65 ≤ c.toNat ∧ c.toNat ≤ 90 := by
    simp [char_le_iff]
  rw [asciiLowerChar]
  by_cases range : 65 ≤ c.toNat ∧ c.toNat ≤ 90
  · rw [if_pos (capital.mpr range), if_pos range, toNat_ofNat (Or.inl (by omega))]
  · rw [if_neg (mt capital.mp range), if_neg range]

/-- The capital form of a letter is a letter, and that of another character is not. -/
@[simp]
theorem isAsciiLetter_asciiUpperChar (c : Char) :
    isAsciiLetter (asciiUpperChar c) = isAsciiLetter c := by
  rw [Bool.eq_iff_iff, isAsciiLetter_iff, isAsciiLetter_iff, toNat_asciiUpperChar]
  split <;> omega

@[simp]
theorem isAsciiLetter_asciiLowerChar (c : Char) :
    isAsciiLetter (asciiLowerChar c) = isAsciiLetter c := by
  rw [Bool.eq_iff_iff, isAsciiLetter_iff, isAsciiLetter_iff, toNat_asciiLowerChar]
  split <;> omega

@[simp]
theorem isAsciiDigit_asciiUpperChar (c : Char) :
    isAsciiDigit (asciiUpperChar c) = isAsciiDigit c := by
  rw [Bool.eq_iff_iff, isAsciiDigit_iff, isAsciiDigit_iff, toNat_asciiUpperChar]
  split <;> omega

@[simp]
theorem isAsciiDigit_asciiLowerChar (c : Char) :
    isAsciiDigit (asciiLowerChar c) = isAsciiDigit c := by
  rw [Bool.eq_iff_iff, isAsciiDigit_iff, isAsciiDigit_iff, toNat_asciiLowerChar]
  split <;> omega

theorem isAsciiLetter_eq_false_of_digit {c : Char} (digit : isAsciiDigit c = true) :
    isAsciiLetter c = false := by
  rw [← Bool.not_eq_true, isAsciiLetter_iff]
  have range := (isAsciiDigit_iff c).mp digit
  omega

/-! ## Words -/

/-- Every character is an ASCII letter or digit. -/
def IsWord (chars : List Char) : Prop :=
  ∀ c ∈ chars, isAsciiAlphanumeric c = true

instance (chars : List Char) : Decidable (IsWord chars) :=
  decidable_of_iff (chars.all isAsciiAlphanumeric = true) List.all_eq_true

theorem IsWord.append {first second : List Char} (left : IsWord first) (right : IsWord second) :
    IsWord (first ++ second) := by
  intro c member
  rcases List.mem_append.mp member with member | member
  · exact left c member
  · exact right c member

theorem IsWord.of_digits {chars : List Char} (digits : ∀ c ∈ chars, isAsciiDigit c = true) :
    IsWord chars := by
  intro c member
  rw [isAsciiAlphanumeric, digits c member, Bool.or_true]

/-! ## The maximal runs of a class -/

theorem flatten_runsFrom (keep : Char → Bool) (chars : List Char) :
    ∀ current, (runsFrom keep current chars).flatten = current.reverse ++ chars.filter keep := by
  induction chars with
  | nil =>
      intro current
      cases current with
      | nil => rfl
      | cons first rest => simp [runsFrom]
  | cons c rest ih =>
      intro current
      by_cases kept : keep c = true
      · rw [runsFrom, if_pos kept, ih, List.filter_cons_of_pos kept]
        simp
      · rw [runsFrom, if_neg kept, List.filter_cons_of_neg kept]
        cases current with
        | nil => simp [ih]
        | cons first others => simp [ih]

/-- The runs hold the wanted characters and no others. -/
theorem flatten_runs (keep : Char → Bool) (chars : List Char) :
    (runs keep chars).flatten = chars.filter keep := by
  simp [runs, flatten_runsFrom]

/-! ## The count of letters -/

/-- How many ASCII letters a text has. -/
def letterCount (chars : List Char) : Nat :=
  chars.countP isAsciiLetter

@[simp]
theorem letterCount_nil : letterCount [] = 0 := rfl

@[simp]
theorem letterCount_append (first second : List Char) :
    letterCount (first ++ second) = letterCount first + letterCount second :=
  List.countP_append

theorem letterCount_cons (c : Char) (chars : List Char) :
    letterCount (c :: chars) = letterCount chars + if isAsciiLetter c then 1 else 0 :=
  List.countP_cons

/-- Letters are among the characters that are kept with the digits. -/
theorem letterCount_filter_alphanumeric (chars : List Char) :
    letterCount (chars.filter isAsciiAlphanumeric) = letterCount chars := by
  rw [letterCount, List.countP_filter]
  apply List.countP_congr
  intro c _
  simp only [isAsciiAlphanumeric, Bool.and_eq_true, Bool.or_eq_true]
  exact ⟨fun both => both.1, fun letter => ⟨letter, Or.inl letter⟩⟩

theorem letterCount_digits {chars : List Char} (digits : ∀ c ∈ chars, isAsciiDigit c = true) :
    letterCount chars = 0 := by
  rw [letterCount, List.countP_eq_zero]
  intro c member
  rw [isAsciiLetter_eq_false_of_digit (digits c member)]
  exact Bool.false_ne_true

end Text
end Hookify
