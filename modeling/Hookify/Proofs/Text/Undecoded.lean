import Hookify.Proofs.Text.Quoting
import Hookify.Text.Quoted

namespace Hookify
namespace Text

open Script

/-!
# Strings that are quoted again

A string loses its quotes, and what was between them is quoted again.  Nothing
is decoded in between, so the characters of its escape sequences are taken for
characters of its value: each backslash gets another one before it, and a line
end in the string stays in the new one, where it may not stand.

What the new string stands for is therefore what the characters of the old one
stand for one by one.  An escape sequence always stands for fewer code units than
it has itself.  So the value is the same if the string has no backslash, and
never otherwise.
-/

section Units

variable {c mark : Char} {chars taken rest : List Char} {units value : List Nat}

theorem length_unitsOf_pos (c : Char) : 0 < (unitsOf c).length := by
  rw [unitsOf, codeUnits]
  split
  · exact Nat.one_pos
  · exact Nat.two_pos

theorem length_le_length_flatMap_unitsOf (chars : List Char) :
    chars.length ≤ (chars.flatMap unitsOf).length := by
  induction chars with
  | nil => exact Nat.le_refl 0
  | cons c rest ih =>
      rw [List.flatMap_cons, List.length_append, List.length_cons, Nat.add_comm]
      exact Nat.add_le_add (length_unitsOf_pos c) ih

theorem length_codeUnits_le (point : Nat) : (codeUnits point).length ≤ 2 := by
  rw [codeUnits]
  split
  · exact Nat.le_succ 1
  · exact Nat.le_refl 2

/-- An escape sequence stands for no more code units than its characters behind the backslash. -/
theorem IsEscape.length_le (isEscape : IsEscape taken rest units) :
    units.length ≤ (taken.flatMap unitsOf).length := by
  have behind := length_le_length_flatMap_unitsOf taken
  cases isEscape with
  | pair length isValue | unit length isValue =>
      refine Nat.le_trans ?_ behind
      rw [List.length_cons, List.length_cons]
      exact Nat.le_add_left _ _
  | @point digits _ value some isValue small =>
      refine Nat.le_trans (length_codeUnits_le value) (Nat.le_trans ?_ behind)
      rw [List.length_cons, List.length_cons]
      exact Nat.le_add_left _ _
  | lineEnd ends alone | lineEnds => exact Nat.zero_le _
  | zero apart => exact behind
  | @single c _ inLine noDigit noX noU =>
      rw [List.flatMap_singleton]
      cases control? c with
      | none => exact Nat.le_refl _
      | some code => exact length_unitsOf_pos c

theorem length_le_of_digitEscape?
    (stands : digitEscape? (taken ++ rest) = some (units, taken.length)) :
    units.length ≤ (taken.flatMap unitsOf).length := by
  have behind := length_le_length_flatMap_unitsOf taken
  generalize whole : taken ++ rest = chars at stands
  cases chars with
  | nil => cases stands
  | cons c chars =>
      rw [digitEscape?] at stands
      split at stands
      · rcases Prod.mk.inj (Option.some.inj stands) with ⟨rfl, length⟩
        refine Nat.le_trans ?_ behind
        rw [← length]
        exact Nat.le_add_left _ _
      split at stands
      · rcases Prod.mk.inj (Option.some.inj stands) with ⟨rfl, length⟩
        rcases List.length_eq_one_iff.mp length.symm with ⟨first, rfl⟩
        rcases List.cons.inj whole with ⟨rfl, _⟩
        rw [List.flatMap_singleton]
      · cases stands

theorem length_le_of_escape?
    (stands : (Quoting.string mark).escape? (taken ++ rest) = some (units, taken.length)) :
    units.length ≤ (taken.flatMap unitsOf).length := by
  rw [Quoting.string_escape?, Option.or_eq_some_iff] at stands
  rcases stands with isEscape | ⟨_, digits⟩
  · exact (isEscape_of_escape? isEscape).length_le
  · exact length_le_of_digitEscape? digits

/-- A string without backslashes stands for its characters, none of which ends a line.  Any other
has fewer code units than its characters. -/
theorem Quoting.Reads.value_or_shorter (reads : (Quoting.string mark).Reads chars value) :
    ('\\' ∉ chars ∧ (∀ c ∈ chars, c ≠ '\n' ∧ c ≠ '\r') ∧ value = chars.flatMap unitsOf) ∨
      ('\\' ∈ chars ∧ value.length < (chars.flatMap unitsOf).length) := by
  induction reads with
  | nil => exact .inl ⟨List.not_mem_nil, fun _ absent => absurd absent List.not_mem_nil, rfl⟩
  | @char c rest units value plain stands reads ih =>
      rcases Quoting.string_char?_eq_some_iff.mp stands with ⟨⟨_, inLine⟩, rfl⟩
      rw [List.flatMap_cons]
      rcases ih with ⟨none, others, rfl⟩ | ⟨some, shorter⟩
      · refine .inl ⟨?_, List.forall_mem_cons.mpr ⟨inLine, others⟩, rfl⟩
        exact List.not_mem_cons_of_ne_of_not_mem (Ne.symm plain) none
      · refine .inr ⟨List.mem_cons_of_mem c some, ?_⟩
        rw [List.length_append, List.length_append]
        omega
  | @escape taken rest units value stands reads ih =>
      refine .inr ⟨List.mem_cons_self, ?_⟩
      have sequence := length_le_of_escape? stands
      have backslash := length_unitsOf_pos '\\'
      have others : value.length ≤ (rest.flatMap unitsOf).length := by
        rcases ih with ⟨_, _, rfl⟩ | ⟨_, shorter⟩
        · exact Nat.le_refl _
        · exact Nat.le_of_lt shorter
      simp only [List.flatMap_cons, List.flatMap_append, List.length_append]
      omega

end Units

section Requoting

variable {c : Char} {chars : List Char} {value : List Nat}

/-- Behind a backslash, a backslash and a quote stand for themselves. -/
theorem read?_escaped (special : c = '\\' ∨ c = '\x27') (rest : List Char) :
    (Quoting.string '\x27').read? 0 ('\\' :: c :: rest) =
      ((Quoting.string '\x27').read? 0 rest).map (unitsOf c ++ ·) := by
  have stands : (Quoting.string '\x27').escape? ([c] ++ rest) = some (unitsOf c, [c].length) := by
    rw [Quoting.string_escape?]
    rcases special with rfl | rfl <;> rfl
  exact Quoting.read?_escape stands

theorem read?_escapeChar (c : Char) (rest : List Char) :
    (Quoting.string '\x27').read? 0 (escapeChar c ++ rest) =
      if c = '\n' ∨ c = '\r' then none
      else ((Quoting.string '\x27').read? 0 rest).map (unitsOf c ++ ·) := by
  by_cases special : c = '\\' ∨ c = '\x27'
  · have escaped : escapeChar c = ['\\', c] := if_pos (by simpa using special)
    have inLine : ¬ (c = '\n' ∨ c = '\r') := by
      rcases special with rfl | rfl <;> decide
    rw [escaped, if_neg inLine]
    exact read?_escaped special rest
  · have same : escapeChar c = [c] := if_neg (by simpa using special)
    rw [not_or] at special
    rw [same, List.singleton_append, Quoting.read?_char special.1]
    by_cases ends : c = '\n' ∨ c = '\r'
    · have stops : (Quoting.string '\x27').char? c rest = none :=
        if_pos (by simpa [or_assoc] using Or.inr ends)
      rw [if_pos ends, stops, Option.bind_none]
    · have stands : (Quoting.string '\x27').char? c rest = some (unitsOf c) :=
        Quoting.string_char?_eq_some_iff.mpr ⟨⟨special.2, not_or.mp ends⟩, rfl⟩
      rw [if_neg ends, stands, Option.bind_some]

/-- What has been quoted stands for its characters, unless a line ends in it. -/
theorem read?_flatMap_escapeChar :
    (Quoting.string '\x27').read? 0 (chars.flatMap escapeChar) = some value ↔
      (∀ c ∈ chars, c ≠ '\n' ∧ c ≠ '\r') ∧ value = chars.flatMap unitsOf := by
  induction chars generalizing value with
  | nil => simp [Quoting.read?, eq_comm]
  | cons c rest ih =>
      rw [List.flatMap_cons, List.flatMap_cons, read?_escapeChar, List.forall_mem_cons]
      split
      · rename_i ends
        refine iff_of_false (fun reads => ?_) (fun stays => ?_)
        · cases reads
        · exact ends.elim stays.1.1.1 stays.1.1.2
      · rename_i inLine
        rw [Option.map_eq_some_iff]
        constructor
        · rintro ⟨behind, reads, rfl⟩
          rcases ih.mp reads with ⟨others, rfl⟩
          exact ⟨⟨not_or.mp inLine, others⟩, rfl⟩
        · rintro ⟨⟨_, others⟩, rfl⟩
          exact ⟨_, ih.mpr ⟨others, rfl⟩, rfl⟩

/-- What a string has between its quotes has the same value when it is quoted again, exactly if it
has no backslash. -/
theorem read?_requoted_iff {mark : Char}
    (reads : (Quoting.string mark).read? 0 chars = some value) :
    (Quoting.string '\x27').read? 0 (chars.flatMap escapeChar) = some value ↔ '\\' ∉ chars := by
  rw [read?_flatMap_escapeChar]
  rcases (Quoting.read?_eq_some_iff.mp reads).value_or_shorter with
    ⟨none, inLine, isValue⟩ | ⟨some, shorter⟩
  · exact iff_of_true ⟨inLine, isValue⟩ none
  · refine iff_of_false (fun ⟨_, isValue⟩ => ?_) (not_not_intro some)
    rw [isValue] at shorter
    exact Nat.lt_irrefl _ shorter

end Requoting

end Text
end Hookify
