import Hookify.Proofs.Text.Alike
import Hookify.Proofs.Text.Occurrence
import Mathlib.Data.List.TakeWhile

namespace Hookify
namespace Text

/-!
# What no normal form takes apart

Code is put in its place line by line: blanks at the ends of lines and the
braces of a block are taken off, and margins are put before lines.  A text
without blanks and braces stays whole through all of that, so where it occurs it
goes on to occur.
-/

/-- Characters, at least one, among which are no blanks and no braces. -/
structure IsSolid (pattern : List Char) : Prop where
  nonempty : pattern ≠ []
  noBlank : ∀ c ∈ pattern, isBlank c = false
  noBrace : ∀ c ∈ pattern, c ≠ '\x7b' ∧ c ≠ '\x7d'

/-- What does not contain a character stands on one side of it. -/
theorem infix_append_cons_iff {pattern before after : List Char} {c : Char}
    (absent : c ∉ pattern) :
    pattern <:+: before ++ c :: after ↔ pattern <:+: before ∨ pattern <:+: after := by
  constructor
  · intro occurs
    induction before with
    | nil =>
        rcases List.infix_cons_iff.mp occurs with starts | later
        · cases pattern with
          | nil => exact .inl List.infix_rfl
          | cons first rest =>
              rw [(List.cons_prefix_cons.mp starts).1] at absent
              exact absurd List.mem_cons_self absent
        · exact .inr later
    | cons first rest ih =>
        rcases List.infix_cons_iff.mp occurs with starts | later
        · change pattern <+: (first :: rest) ++ c :: after at starts
          obtain ⟨behind, same⟩ := starts
          rcases List.append_eq_append_iff.mp same with ⟨middle, whole, _⟩ | ⟨middle, whole, split⟩
          · exact .inl ⟨[], middle, by rw [List.nil_append, ← whole]⟩
          · cases middle with
            | nil => exact .inl ⟨[], [], by rw [whole]; simp⟩
            | cons other more =>
                rw [List.cons_append, List.cons.injEq] at split
                rw [whole, ← split.1] at absent
                exact absurd (List.mem_append_right _ List.mem_cons_self) absent
        · exact (ih later).imp_left fun inside => inside.trans (List.suffix_cons _ _).isInfix
  · rintro (inside | inside)
    · exact inside.trans (List.prefix_append _ _).isInfix
    · exact inside.trans ((List.suffix_cons _ _).trans (List.suffix_append _ _)).isInfix

section Ends

variable {pattern line : List Char} {c : Char} (filled : pattern ≠ []) (absent : c ∉ pattern)

include filled absent

theorem infix_of_infix_cons (occurs : pattern <:+: c :: line) : pattern <:+: line := by
  rw [← List.nil_append (c :: line), infix_append_cons_iff absent] at occurs
  exact occurs.resolve_left (mt List.infix_nil.mp filled)

theorem infix_of_infix_concat (occurs : pattern <:+: line ++ [c]) : pattern <:+: line := by
  rw [infix_append_cons_iff absent] at occurs
  exact occurs.resolve_right (mt List.infix_nil.mp filled)

end Ends

namespace IsSolid

variable {pattern line chars : List Char} {lines : List (List Char)}

theorem not_mem (solid : IsSolid pattern) {c : Char} (blank : isBlank c = true) : c ∉ pattern := by
  intro member
  rw [solid.noBlank c member] at blank
  cases blank

theorem reverse (solid : IsSolid pattern) : IsSolid pattern.reverse where
  nonempty := mt List.reverse_eq_nil_iff.mp solid.nonempty
  noBlank := fun c member => solid.noBlank c (List.mem_reverse.mp member)
  noBrace := fun c member => solid.noBrace c (List.mem_reverse.mp member)

theorem ne_nil (solid : IsSolid pattern) (occurs : pattern <:+: line) : line ≠ [] := by
  rintro rfl
  exact solid.nonempty (List.infix_nil.mp occurs)

/-! ## In a line -/

/-- What begins with a blank has what is solid behind it. -/
theorem infix_of_cons (solid : IsSolid pattern) {c : Char} (blank : isBlank c = true)
    (occurs : pattern <:+: c :: line) : pattern <:+: line :=
  infix_of_infix_cons solid.nonempty (solid.not_mem blank) occurs

theorem dropWhile (solid : IsSolid pattern) (occurs : pattern <:+: line) :
    pattern <:+: line.dropWhile isBlank := by
  induction line with
  | nil => exact occurs
  | cons c rest ih =>
      cases blank : isBlank c with
      | true =>
          rw [List.dropWhile_cons_of_pos blank]
          exact ih (solid.infix_of_cons blank occurs)
      | false =>
          rwa [List.dropWhile_cons_of_neg (by rw [blank]; exact Bool.false_ne_true)]

theorem trimEnd (solid : IsSolid pattern) (occurs : pattern <:+: line) :
    pattern <:+: trimEndChars line := by
  rw [trimEndChars, ← List.reverse_infix, List.reverse_reverse]
  exact solid.reverse.dropWhile (List.reverse_infix.mpr occurs)

theorem trim (solid : IsSolid pattern) (occurs : pattern <:+: line) :
    pattern <:+: trimChars line :=
  solid.trimEnd (solid.dropWhile occurs)

theorem stripIndent (solid : IsSolid pattern) (occurs : pattern <:+: line) (width : Nat) :
    pattern <:+: stripIndent width line := by
  induction width generalizing line with
  | zero => exact occurs
  | succ width ih =>
      cases line with
      | nil => exact occurs
      | cons c rest =>
          rw [Text.stripIndent]
          split
          · rename_i blank
            exact ih (solid.infix_of_cons blank occurs)
          · exact occurs

theorem isBlankChars_eq (solid : IsSolid pattern) (occurs : pattern <:+: line) :
    isBlankChars line = false := by
  obtain ⟨c, member⟩ := List.exists_mem_of_ne_nil _ solid.nonempty
  refine Bool.eq_false_iff.mpr fun blank => ?_
  exact solid.not_mem (List.all_eq_true.mp blank c (occurs.subset member)) member

theorem enclosed (solid : IsSolid pattern) (occurs : pattern <:+: line) :
    pattern <:+: (enclosed? '\x7b' '\x7d' line).getD line := by
  cases found : enclosed? '\x7b' '\x7d' line with
  | none => exact occurs
  | some inside =>
      rw [enclosed?_eq_some_iff.mp found] at occurs
      have opened := infix_of_infix_cons solid.nonempty
        (fun member => (solid.noBrace _ member).1 rfl) occurs
      exact infix_of_infix_concat solid.nonempty (fun member => (solid.noBrace _ member).2 rfl) opened

/-! ## In the lines of a text -/

theorem dropReturn (solid : IsSolid pattern) (occurs : pattern <:+: line) :
    pattern <:+: (Text.dropReturn line.reverse).reverse := by
  rw [← List.reverse_infix, List.reverse_reverse]
  have backwards := List.reverse_infix.mpr occurs
  rw [Text.dropReturn.eq_def]
  split
  · rename_i rest ends
    rw [ends] at backwards
    exact solid.reverse.infix_of_cons (by decide) backwards
  · exact backwards

/-- What is solid occurs in one of the lines. -/
theorem exists_line (solid : IsSolid pattern) (occurs : pattern <:+: chars) :
    ∃ line ∈ lineChars chars, pattern <:+: line := by
  induction size : chars.length using Nat.strongRecOn generalizing chars with
  | ind bound ih =>
      rcases firstLine_cases chars with single | ⟨line, rest, rfl, single⟩
      · rw [lineChars_single single (solid.ne_nil occurs)]
        exact ⟨chars, List.mem_singleton_self _, occurs⟩
      · rw [lineChars_append_newline single]
        rcases (infix_append_cons_iff (solid.not_mem (by decide))).mp occurs with here | later
        · exact ⟨_, List.mem_cons_self, solid.dropReturn here⟩
        · obtain ⟨other, member, inside⟩ := ih rest.length
            (by rw [← size, List.length_append, List.length_cons]; omega) later rfl
          exact ⟨other, List.mem_cons_of_mem _ member, inside⟩

end IsSolid

theorem infix_joinLines {line : List Char} {lines : List (List Char)} (member : line ∈ lines) :
    line <:+: joinLines lines := by
  induction lines with
  | nil => exact absurd member List.not_mem_nil
  | cons first rest ih =>
      rcases List.eq_nil_or_concat rest with rfl | some
      · rw [List.mem_singleton.mp member]
        exact List.infix_rfl
      · have more : rest ≠ [] := by
          obtain ⟨_, _, rfl⟩ := some
          simp
        rw [joinLines_cons first more]
        rcases List.mem_cons.mp member with rfl | later
        · exact (List.prefix_append _ _).isInfix
        · exact (ih later).trans ((List.suffix_cons _ _).trans (List.suffix_append _ _)).isInfix

namespace IsSolid

variable {pattern line chars : List Char} {lines : List (List Char)}

theorem joinLines (member : line ∈ lines) (occurs : pattern <:+: line) :
    pattern <:+: joinLines lines :=
  occurs.trans (infix_joinLines member)

theorem dedent (solid : IsSolid pattern) (occurs : pattern <:+: chars) :
    pattern <:+: dedentChars chars := by
  obtain ⟨line, member, inside⟩ := solid.exists_line occurs
  refine joinLines (List.mem_map_of_mem member) ?_
  rw [solid.isBlankChars_eq inside, if_neg Bool.false_ne_true]
  exact solid.stripIndent inside _

theorem exists_squeezed (solid : IsSolid pattern) (member : line ∈ lines)
    (occurs : pattern <:+: line) (blankBefore : Bool) :
    ∃ squeezed ∈ squeezeLines blankBefore lines, pattern <:+: squeezed := by
  induction lines generalizing blankBefore with
  | nil => exact absurd member List.not_mem_nil
  | cons first rest ih =>
      rw [squeezeLines]
      rcases List.mem_cons.mp member with rfl | later
      · have trimmed := solid.trimEnd occurs
        rw [if_neg (mt List.isEmpty_iff.mp (solid.ne_nil trimmed))]
        exact ⟨_, List.mem_cons_self, trimmed⟩
      · split
        · split
          · exact ih later true
          · obtain ⟨squeezed, among, inside⟩ := ih later true
            exact ⟨squeezed, List.mem_cons_of_mem _ among, inside⟩
        · obtain ⟨squeezed, among, inside⟩ := ih later false
          exact ⟨squeezed, List.mem_cons_of_mem _ among, inside⟩

theorem mem_dropTrailingEmpty (member : line ∈ lines) (filled : line ≠ []) :
    line ∈ dropTrailingEmpty lines := by
  rw [dropTrailingEmpty, List.mem_reverse]
  have among := List.mem_reverse.mpr member
  rw [← List.takeWhile_append_dropWhile (p := List.isEmpty) (l := lines.reverse)] at among
  refine (List.mem_append.mp among).resolve_left fun empty => ?_
  exact filled (List.isEmpty_iff.mp (List.mem_takeWhile_imp empty))

theorem tidy (solid : IsSolid pattern) (occurs : pattern <:+: chars) :
    pattern <:+: tidyChars chars := by
  obtain ⟨line, member, inside⟩ := solid.exists_line occurs
  obtain ⟨squeezed, among, within⟩ := solid.exists_squeezed member inside true
  exact joinLines (mem_dropTrailingEmpty among (solid.ne_nil within)) within

theorem blockInner (solid : IsSolid pattern) (occurs : pattern <:+: chars) :
    pattern <:+: blockInnerChars chars :=
  solid.dedent (solid.tidy (solid.enclosed (solid.trim occurs)))

/-- The first line stays as it is; others change in a way that keeps what is solid. -/
theorem continuation (solid : IsSolid pattern) (occurs : pattern <:+: chars)
    {change : List Char → List Char}
    (keeps : ∀ line, pattern <:+: line → pattern <:+: change line) :
    pattern <:+: match lineChars chars with
      | [] => []
      | first :: others => Text.joinLines (first :: others.map change) := by
  obtain ⟨line, member, inside⟩ := solid.exists_line occurs
  split
  · rename_i empty
    rw [empty] at member
    exact absurd member List.not_mem_nil
  · rename_i first others split
    rw [split] at member
    rcases List.mem_cons.mp member with rfl | later
    · exact joinLines List.mem_cons_self inside
    · exact joinLines (List.mem_cons_of_mem _ (List.mem_map_of_mem later)) (keeps line inside)

end IsSolid

/-! ## In code -/

section Code

variable {pattern text : String} (solid : IsSolid pattern.toList)

include solid

theorem occursIn_blockInner (occurs : occursIn pattern text = true) :
    occursIn pattern (blockInner text) = true := by
  rw [occursIn_iff] at occurs ⊢
  rw [blockInner, toList_overChars]
  exact solid.blockInner occurs

theorem occursIn_indentContinuation (occurs : occursIn pattern text = true) (margin : String) :
    occursIn pattern (indentContinuation margin text) = true := by
  rw [occursIn_iff] at occurs ⊢
  rw [indentContinuation, toList_overChars]
  refine solid.continuation occurs fun line inside => ?_
  rw [if_neg (mt List.isEmpty_iff.mp (solid.ne_nil inside))]
  exact inside.trans (List.suffix_append _ _).isInfix

theorem occursIn_dedentContinuation (occurs : occursIn pattern text = true) (column : Nat) :
    occursIn pattern (dedentContinuation column text) = true := by
  rw [occursIn_iff] at occurs ⊢
  rw [dedentContinuation, toList_overChars]
  exact solid.continuation occurs fun line inside => solid.stripIndent inside column

end Code

end Text
end Hookify
