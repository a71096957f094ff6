import Hookify.Proofs.Text.Ascii
import Hookify.Proofs.Text.Lines
import Hookify.Proofs.Text.Occurrence

namespace Hookify
namespace Text

/-!
# Replacing a word

Replacing a text wherever it occurs is dangerous in general: it may begin in
one part of the text and end in the next, or occur where it is not meant.  For
a word, which consists of ASCII letters and digits only, the first danger does
not exist.  Every other character separates, and what stands before and behind
a separator is treated by itself.  In particular lines are.

The second danger is met part by part.  A part without an occurrence of the
word stays as it is, and two simple tests rule an occurrence out: the part has
fewer letters than the word, or not even the start of the word occurs in it.
-/

/-! ## Occurrences -/

/-- Characters with fewer letters than a pattern do not hold it. -/
theorem not_infix_of_letterCount {pattern chars : List Char}
    (fewer : letterCount chars < letterCount pattern) : ¬ pattern <:+: chars := by
  intro occurs
  have atMost : letterCount pattern ≤ letterCount chars :=
    occurs.sublist.countP_le
  omega

/-- Characters that do not hold the start of a pattern do not hold the pattern. -/
theorem not_infix_of_start {start rest chars : List Char}
    (absent : occursChars start chars = false) : ¬ start ++ rest <:+: chars := by
  intro occurs
  have startOccurs : start <:+: chars := (List.prefix_append start rest).isInfix.trans occurs
  rw [(occursChars_iff start chars).mpr startOccurs] at absent
  exact absurd absent.symm Bool.false_ne_true

/-! ## One word -/

section Word

variable {word new : List Char}

theorem replaceChars_eq (nonempty : word ≠ []) (chars : List Char) :
    replaceChars word new chars = replaceFrom word new 0 chars := by
  rw [replaceChars, if_neg]
  rw [List.isEmpty_iff]
  exact nonempty

theorem replaceChars_nil (nonempty : word ≠ []) : replaceChars word new [] = [] := by
  rw [replaceChars_eq nonempty]
  rfl

/-- Behind the characters of an occurrence nothing is left of it. -/
theorem replaceFrom_of_length_le {skip : Nat} {chars : List Char} (long : chars.length ≤ skip) :
    replaceFrom word new skip chars = [] := by
  induction chars generalizing skip with
  | nil => cases skip <;> rfl
  | cons c rest ih =>
      cases skip with
      | zero => exact absurd long (Nat.not_succ_le_zero _)
      | succ skip => exact ih (Nat.le_of_succ_le_succ long)

/-- A word that begins before a separator ends before it. -/
theorem isPrefixOf_append_separator (isWord : IsWord word) (chars after : List Char) {c : Char}
    (separator : isAsciiAlphanumeric c = false) :
    word.isPrefixOf (chars ++ c :: after) = word.isPrefixOf chars := by
  rw [Bool.eq_iff_iff, List.isPrefixOf_iff_prefix, List.isPrefixOf_iff_prefix]
  constructor
  · rintro ⟨rest, same⟩
    rcases List.append_eq_append_iff.mp same with ⟨middle, split, _⟩ | ⟨middle, split, tail⟩
    · exact ⟨middle, split.symm⟩
    · cases middle with
      | nil => exact ⟨[], by rw [split, List.append_nil, List.append_nil]⟩
      | cons first others =>
          have head : c = first := (List.cons.inj tail).1
          have inWord := isWord c (by rw [split, head]; simp)
          exact absurd (separator.symm.trans inWord) Bool.false_ne_true
  · intro isPrefix
    exact isPrefix.trans (List.prefix_append chars (c :: after))

/-- What stands behind a separator is treated by itself; before it, some characters may belong to
an occurrence that has been replaced already. -/
theorem replaceFrom_append_separator (isWord : IsWord word) (nonempty : word ≠ [])
    (before after : List Char) {c : Char} (separator : isAsciiAlphanumeric c = false) :
    ∀ skip, skip ≤ before.length →
      replaceFrom word new skip (before ++ c :: after) =
        replaceFrom word new skip before ++ c :: replaceFrom word new 0 after := by
  induction before with
  | nil =>
      intro skip bound
      have none : skip = 0 := Nat.le_zero.mp bound
      have absent : word.isPrefixOf ([] ++ c :: after) = false := by
        rw [isPrefixOf_append_separator isWord [] after separator]
        cases word with
        | nil => exact absurd rfl nonempty
        | cons first rest => rfl
      rw [List.nil_append] at absent
      rw [none, List.nil_append]
      simp [replaceFrom, absent]
  | cons first rest ih =>
      intro skip bound
      cases skip with
      | succ skip => exact ih skip (Nat.le_of_succ_le_succ bound)
      | zero =>
          have same := isPrefixOf_append_separator isWord (first :: rest) after separator
          rw [List.cons_append] at same
          rw [List.cons_append, replaceFrom, replaceFrom, same]
          by_cases starts : word.isPrefixOf (first :: rest) = true
          · have short : word.length - 1 ≤ rest.length := by
              have fits := (List.isPrefixOf_iff_prefix.mp starts).length_le
              rw [List.length_cons] at fits
              omega
            rw [if_pos starts, if_pos starts, ih _ short, List.append_assoc]
          · rw [if_neg starts, if_neg starts, ih 0 (Nat.zero_le _), List.cons_append]

theorem replaceChars_append_separator (isWord : IsWord word) (nonempty : word ≠ [])
    (before after : List Char) {c : Char} (separator : isAsciiAlphanumeric c = false) :
    replaceChars word new (before ++ c :: after) =
      replaceChars word new before ++ c :: replaceChars word new after := by
  rw [replaceChars_eq nonempty, replaceChars_eq nonempty, replaceChars_eq nonempty]
  exact replaceFrom_append_separator isWord nonempty before after separator 0 (Nat.zero_le _)

theorem replaceChars_cons_separator (isWord : IsWord word) (nonempty : word ≠ [])
    (after : List Char) {c : Char} (separator : isAsciiAlphanumeric c = false) :
    replaceChars word new (c :: after) = c :: replaceChars word new after := by
  calc replaceChars word new ([] ++ c :: after)
      = replaceChars word new [] ++ c :: replaceChars word new after :=
        replaceChars_append_separator isWord nonempty [] after separator
    _ = c :: replaceChars word new after := by rw [replaceChars_nil nonempty, List.nil_append]

theorem replaceChars_of_not_infix (nonempty : word ≠ []) {chars : List Char}
    (absent : ¬ word <:+: chars) : replaceChars word new chars = chars := by
  rw [replaceChars_eq nonempty]
  induction chars with
  | nil => rfl
  | cons c rest ih =>
      have notHere : ¬ word.isPrefixOf (c :: rest) = true := by
        intro starts
        exact absent (List.isPrefixOf_iff_prefix.mp starts).isInfix
      have notLater : ¬ word <:+: rest := by
        intro later
        exact absent (later.trans (List.suffix_cons c rest).isInfix)
      rw [replaceFrom, if_neg notHere, ih notLater]

theorem replaceChars_self (nonempty : word ≠ []) : replaceChars word new word = new := by
  rw [replaceChars_eq nonempty]
  cases word with
  | nil => exact absurd rfl nonempty
  | cons first rest =>
      have starts : (first :: rest).isPrefixOf (first :: rest) = true :=
        List.isPrefixOf_iff_prefix.mpr (List.prefix_refl _)
      rw [replaceFrom, if_pos starts, replaceFrom_of_length_le, List.append_nil]
      exact Nat.le_of_eq rfl

theorem mem_replaceChars (nonempty : word ≠ []) {c : Char} {chars : List Char}
    (member : c ∈ replaceChars word new chars) : c ∈ chars ∨ c ∈ new := by
  rw [replaceChars_eq nonempty] at member
  suffices general : ∀ skip, c ∈ replaceFrom word new skip chars → c ∈ chars ∨ c ∈ new from
    general 0 member
  clear member
  induction chars with
  | nil =>
      intro skip inside
      cases skip <;> exact absurd inside List.not_mem_nil
  | cons first rest ih =>
      intro skip inside
      cases skip with
      | succ skip => exact (ih skip inside).imp_left (List.mem_cons_of_mem first)
      | zero =>
          rw [replaceFrom] at inside
          split at inside
          · rcases List.mem_append.mp inside with inNew | later
            · exact Or.inr inNew
            · exact (ih _ later).imp_left (List.mem_cons_of_mem first)
          · rcases List.mem_cons.mp inside with same | later
            · exact Or.inl (same ▸ List.mem_cons_self)
            · exact (ih 0 later).imp_left (List.mem_cons_of_mem first)

theorem replaceChars_eq_nil_iff (nonempty : word ≠ []) (newNonempty : new ≠ [])
    (chars : List Char) : replaceChars word new chars = [] ↔ chars = [] := by
  rw [replaceChars_eq nonempty]
  cases chars with
  | nil => exact Iff.rfl
  | cons c rest =>
      rw [replaceFrom]
      split
      · simp [newNonempty]
      · simp

/-! ## Lines

In the rest of the section the new text is a word too, so that it brings no line end with it. -/

/-- The last character is there and is an ASCII letter or digit. -/
def EndsInWord (chars : List Char) : Prop :=
  ∃ front last, chars = front ++ [last] ∧ isAsciiAlphanumeric last = true

theorem EndsInWord.append_left {chars : List Char} (ends : EndsInWord chars)
    (before : List Char) : EndsInWord (before ++ chars) := by
  rcases ends with ⟨front, last, rfl, inWord⟩
  exact ⟨before ++ front, last, (List.append_assoc _ _ _).symm, inWord⟩

theorem IsWord.endsInWord {chars : List Char} (isWord : IsWord chars) (nonempty : chars ≠ []) :
    EndsInWord chars :=
  ⟨_, _, (List.dropLast_concat_getLast nonempty).symm, isWord _ (List.getLast_mem nonempty)⟩

theorem EndsInWord.of_cons {c : Char} {rest : List Char} (ends : EndsInWord (c :: rest)) :
    rest = [] ∧ isAsciiAlphanumeric c = true ∨ EndsInWord rest := by
  rcases ends with ⟨front, last, same, inWord⟩
  cases front with
  | nil =>
      rcases List.cons.inj same with ⟨rfl, rfl⟩
      exact Or.inl ⟨rfl, inWord⟩
  | cons first others => exact Or.inr ⟨others, last, (List.cons.inj same).2, inWord⟩

/-- What ends in a letter or digit does so after the replacement, unless nothing is left of it. -/
theorem endsInWord_replaceFrom (nonempty : word ≠ []) (newWord : IsWord new)
    (newNonempty : new ≠ []) (chars : List Char) (ends : EndsInWord chars) :
    ∀ skip, replaceFrom word new skip chars = [] ∨
      EndsInWord (replaceFrom word new skip chars) := by
  induction chars with
  | nil =>
      rcases ends with ⟨front, last, same, _⟩
      exact absurd same.symm (by simp)
  | cons c rest ih =>
      have restEnds := ends.of_cons
      have later : ∀ skip, replaceFrom word new skip rest = [] ∨
          EndsInWord (replaceFrom word new skip rest) := by
        intro skip
        rcases restEnds with ⟨rfl, _⟩ | restEnds
        · exact Or.inl (replaceFrom_of_length_le (Nat.zero_le skip))
        · exact ih restEnds skip
      intro skip
      cases skip with
      | succ skip => exact later skip
      | zero =>
          rw [replaceFrom]
          split
          · rcases later (word.length - 1) with empty | ends
            · rw [empty, List.append_nil]
              exact Or.inr (newWord.endsInWord newNonempty)
            · exact Or.inr (ends.append_left new)
          · rcases restEnds with ⟨rfl, inWord⟩ | restEnds
            · exact Or.inr ⟨[], c, rfl, inWord⟩
            · rcases later 0 with empty | ends
              · rcases restEnds with ⟨front, last, rfl, _⟩
                rw [← replaceChars_eq nonempty, replaceChars_eq_nil_iff nonempty newNonempty]
                  at empty
                exact absurd empty (by simp)
              · exact Or.inr (ends.append_left [c])

theorem dropReturn_concat (front : List Char) (last : Char) :
    (dropReturn (front ++ [last]).reverse).reverse =
      if last = '\r' then front else front ++ [last] := by
  rw [List.reverse_append, List.reverse_singleton, List.singleton_append]
  by_cases isReturn : last = '\r'
  · rw [if_pos isReturn, isReturn, dropReturn, List.reverse_reverse]
  · rw [if_neg isReturn, dropReturn]
    · simp
    · intro line same
      exact isReturn (List.cons.inj same).1

/-- A carriage return at the end of a line is neither made nor lost. -/
theorem replaceChars_dropReturn (isWord : IsWord word) (nonempty : word ≠ [])
    (newWord : IsWord new) (newNonempty : new ≠ []) (line : List Char) :
    (dropReturn (replaceChars word new line).reverse).reverse =
      replaceChars word new (dropReturn line.reverse).reverse := by
  rcases List.eq_nil_or_concat line with rfl | ⟨front, last, rfl⟩
  · rw [replaceChars_nil nonempty]
    exact (replaceChars_nil nonempty).symm
  · rw [List.concat_eq_append, dropReturn_concat]
    by_cases separator : isAsciiAlphanumeric last = false
    · have split : replaceChars word new (front ++ [last]) =
          replaceChars word new front ++ [last] := by
        rw [replaceChars_append_separator isWord nonempty front [] separator,
          replaceChars_nil nonempty]
      rw [split, dropReturn_concat]
      by_cases isReturn : last = '\r'
      · rw [if_pos isReturn, if_pos isReturn]
      · rw [if_neg isReturn, if_neg isReturn, split]
    · have inWord : isAsciiAlphanumeric last = true := by simpa using separator
      have notReturn : ∀ c, isAsciiAlphanumeric c = true → c ≠ '\r' := by
        rintro c inWord rfl
        exact absurd inWord (by decide)
      rw [if_neg (notReturn last inWord), replaceChars_eq nonempty]
      rcases endsInWord_replaceFrom nonempty newWord newNonempty _ ⟨front, last, rfl, inWord⟩ 0
        with empty | ⟨start, final, same, finalWord⟩
      · rw [empty]
        rfl
      · rw [same, dropReturn_concat, if_neg (notReturn final finalWord)]

theorem lineChars_replaceChars (isWord : IsWord word) (nonempty : word ≠ [])
    (newWord : IsWord new) (newNonempty : new ≠ []) (chars : List Char) :
    lineChars (replaceChars word new chars) = (lineChars chars).map (replaceChars word new) := by
  have single : ∀ {line : List Char}, '\n' ∉ line → '\n' ∉ replaceChars word new line := by
    intro line absent member
    rcases mem_replaceChars nonempty member with old | fresh
    · exact absent old
    · exact absurd (newWord _ fresh) (by decide)
  induction size : chars.length using Nat.strongRecOn generalizing chars with
  | ind bound ih =>
      rcases firstLine_cases chars with absent | ⟨line, rest, rfl, absent⟩
      · by_cases empty : chars = []
        · rw [empty, replaceChars_nil nonempty]
          rfl
        · have filled := mt (replaceChars_eq_nil_iff nonempty newNonempty chars).mp empty
          rw [lineChars_single (single absent) filled, lineChars_single absent empty]
          rfl
      · have shorter : rest.length < bound := by
          rw [← size, List.length_append, List.length_cons]
          omega
        rw [replaceChars_append_separator isWord nonempty line rest rfl,
          lineChars_append_newline (single absent), lineChars_append_newline absent,
          replaceChars_dropReturn isWord nonempty newWord newNonempty, ih _ shorter rest rfl,
          List.map_cons]

theorem joinLines_replaceChars (isWord : IsWord word) (nonempty : word ≠ [])
    (lines : List (List Char)) :
    joinLines (lines.map (replaceChars word new)) = replaceChars word new (joinLines lines) := by
  induction lines with
  | nil => exact (replaceChars_nil nonempty).symm
  | cons line rest ih =>
      by_cases last : rest = []
      · rw [last]
        rfl
      · have more : rest.map (replaceChars word new) ≠ [] := mt List.map_eq_nil_iff.mp last
        rw [List.map_cons, joinLines_cons _ more, joinLines_cons _ last, ih,
          replaceChars_append_separator isWord nonempty _ _ rfl]

/-- Characters that separate are kept at the start. -/
theorem replaceChars_separators_append (isWord : IsWord word) (nonempty : word ≠ [])
    {separators : List Char} (separate : ∀ c ∈ separators, isAsciiAlphanumeric c = false)
    (chars : List Char) :
    replaceChars word new (separators ++ chars) = separators ++ replaceChars word new chars := by
  induction separators with
  | nil => rfl
  | cons c rest ih =>
      rw [List.cons_append,
        replaceChars_cons_separator isWord nonempty _ (separate c List.mem_cons_self),
        ih fun d member => separate d (List.mem_cons_of_mem c member), List.cons_append]

/-- A word may be replaced before or after lines are indented. -/
theorem indentChars_replaceChars (isWord : IsWord word) (nonempty : word ≠ [])
    (newWord : IsWord new) (newNonempty : new ≠ []) {margin : List Char}
    (separate : ∀ c ∈ margin, isAsciiAlphanumeric c = false) (chars : List Char) :
    indentChars margin (replaceChars word new chars) =
      replaceChars word new (indentChars margin chars) := by
  rw [indentChars, indentChars, lineChars_replaceChars isWord nonempty newWord newNonempty,
    ← joinLines_replaceChars isWord nonempty, List.map_map, List.map_map]
  apply congrArg joinLines
  apply List.map_congr_left
  intro line _
  simp only [Function.comp_apply, List.isEmpty_iff, replaceChars_eq_nil_iff nonempty newNonempty]
  split
  · exact (replaceChars_nil nonempty).symm
  · exact (replaceChars_separators_append isWord nonempty separate line).symm

end Word

end Text
end Hookify
