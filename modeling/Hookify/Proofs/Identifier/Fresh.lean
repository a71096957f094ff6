import Hookify.Identifier.Fresh
import Hookify.Text.Letter
import Mathlib.Data.List.Nodup
import Mathlib.Data.List.Perm.Subperm

namespace Hookify
namespace Identifier

/-!
# The search for a fresh identifier

The candidates for a name are all different, because their numbers are written
in different digits.  A finite list of taken names therefore cannot hold one
candidate more than it has members, and the search, which makes one attempt
more than that, always ends at a name that is not taken.

The result is the wanted name followed by digits only.  What else is known of
a wanted name, such as the letters in it, is therefore known of the fresh one.
-/

/-- What a candidate has behind the wanted name. -/
def candidateSuffix : Nat → String
  | 0 => ""
  | index + 1 => toString (index + 2)

theorem candidate_eq_append (base : String) (index : Nat) :
    candidate base index = base ++ candidateSuffix index := by
  cases index with
  | zero => exact String.append_empty.symm
  | succ index => rfl

theorem toString_toList (number : Nat) :
    (toString number).toList = Nat.toDigits 10 number := by
  rw [Nat.toString_eq_repr, Nat.toList_repr]

theorem toString_injective : Function.Injective (toString : Nat → String) := by
  intro first second same
  have digits : Nat.toDigits 10 first = Nat.toDigits 10 second := by
    rw [← toString_toList, ← toString_toList, same]
  have values := congrArg (Nat.ofDigitChars 10 · 0) digits
  simpa only [Nat.ofDigitChars_ten_toDigits] using values

theorem isAsciiDigit_of_isDigit {c : Char} (digit : c.isDigit = true) :
    Text.isAsciiDigit c = true := by
  simpa [Char.isDigit, Text.isAsciiDigit, Char.le_def] using digit

/-- A number behind a name consists of digits, as far as it has characters at all. -/
theorem candidateSuffix_digits (index : Nat) :
    ∀ c ∈ (candidateSuffix index).toList, Text.isAsciiDigit c = true := by
  cases index with
  | zero =>
      intro c member
      exact absurd member (by simp [candidateSuffix])
  | succ index =>
      intro c member
      have digit : c ∈ Nat.toDigits 10 (index + 2) := by
        rw [← toString_toList]
        exact member
      exact isAsciiDigit_of_isDigit (Nat.isDigit_of_mem_toDigits (by decide) (by decide) digit)

theorem candidateSuffix_injective : Function.Injective candidateSuffix := by
  intro first second same
  have nonempty : ∀ index, candidateSuffix (index + 1) ≠ "" := by
    intro index empty
    have digits : Nat.toDigits 10 (index + 2) = [] := by
      rw [← toString_toList]
      exact congrArg String.toList empty
    exact Nat.toDigits_ne_nil digits
  cases first with
  | zero =>
      cases second with
      | zero => rfl
      | succ second => exact absurd same.symm (nonempty second)
  | succ first =>
      cases second with
      | zero => exact absurd same (nonempty first)
      | succ second =>
          have numbers : first + 2 = second + 2 := toString_injective same
          rw [Nat.add_right_cancel numbers]

theorem candidate_injective (base : String) : Function.Injective (candidate base) := by
  intro first second same
  rw [candidate_eq_append, candidate_eq_append] at same
  exact candidateSuffix_injective (String.append_right_inj base |>.mp same)

/-! ## Where the search ends -/

/-- The search stops at a candidate all of whose predecessors from its start on are taken.  That
candidate is free unless all attempts have been used up. -/
theorem searchFree_spec (taken : List String) (base : String) (attempts : Nat) :
    ∀ index, ∃ found, index ≤ found ∧ found ≤ index + attempts ∧
      searchFree taken base index attempts = candidate base found ∧
      (∀ earlier, index ≤ earlier → earlier < found → candidate base earlier ∈ taken) ∧
      (candidate base found ∉ taken ∨ found = index + attempts) := by
  induction attempts with
  | zero =>
      intro index
      refine ⟨index, Nat.le_refl _, Nat.le_refl _, rfl, ?_, Or.inr rfl⟩
      intro earlier lower upper
      omega
  | succ attempts ih =>
      intro index
      by_cases isTaken : candidate base index ∈ taken
      · rcases ih (index + 1) with ⟨found, lower, upper, result, before, free⟩
        refine ⟨found, by omega, by omega, ?_, ?_, ?_⟩
        · rw [searchFree, if_pos (List.contains_iff_mem.mpr isTaken)]
          exact result
        · intro earlier atLeast below
          rcases Nat.eq_or_lt_of_le atLeast with same | later
          · exact same ▸ isTaken
          · exact before earlier later below
        · rcases free with free | last
          · exact Or.inl free
          · exact Or.inr (by omega)
      · refine ⟨index, Nat.le_refl _, by omega, ?_, ?_, Or.inl isTaken⟩
        · rw [searchFree, if_neg]
          intro contained
          exact isTaken (List.contains_iff_mem.mp contained)
        · intro earlier lower upper
          omega

/-- As many different candidates as a list has members, and one more, are not all in the list. -/
theorem exists_candidate_not_mem (taken : List String) (base : String) :
    ∃ index, index ≤ taken.length ∧ candidate base index ∉ taken := by
  by_contra none
  have subset : (List.range (taken.length + 1)).map (candidate base) ⊆ taken := by
    intro name member
    rcases List.mem_map.mp member with ⟨index, inRange, rfl⟩
    by_contra free
    exact none ⟨index, Nat.le_of_lt_succ (List.mem_range.mp inRange), free⟩
  have different : ((List.range (taken.length + 1)).map (candidate base)).Nodup :=
    List.nodup_range.map (candidate_injective base)
  have atMost := (List.subperm_of_subset different subset).length_le
  rw [List.length_map, List.length_range] at atMost
  omega

/-- A fresh name is the first candidate that is not taken. -/
theorem fresh_spec (taken : List String) (base : String) :
    ∃ index, fresh taken base = candidate base index ∧ candidate base index ∉ taken ∧
      ∀ earlier, earlier < index → candidate base earlier ∈ taken := by
  rcases searchFree_spec taken base taken.length 0 with ⟨found, _, _, result, before, free⟩
  refine ⟨found, result, ?_, fun earlier below => before earlier (Nat.zero_le _) below⟩
  rcases free with free | last
  · exact free
  · rcases exists_candidate_not_mem taken base with ⟨index, bound, free⟩
    have atEnd : index = found := by
      by_contra different
      exact free (before index (Nat.zero_le _) (by omega))
    exact atEnd ▸ free

theorem fresh_not_mem (taken : List String) (base : String) : fresh taken base ∉ taken := by
  rcases fresh_spec taken base with ⟨index, result, free, _⟩
  rw [result]
  exact free

/-- A fresh name is the wanted one if that is not taken. -/
theorem fresh_eq_of_not_mem {taken : List String} {base : String} (free : base ∉ taken) :
    fresh taken base = base := by
  rcases fresh_spec taken base with ⟨index, result, _, before⟩
  rw [result]
  cases index with
  | zero => rfl
  | succ index => exact absurd (before 0 (Nat.succ_pos index)) free

end Identifier
end Hookify
