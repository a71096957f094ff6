import Hookify.Proofs.Text.Unmoved

namespace Hookify
namespace Text

/-!
# Line ends

What changes a text line by line joins the lines again with line feeds, so that
afterwards all lines end alike.  Two changes that cancel out on every line leave
the text with its line ends unified twice.  That is more than once: a carriage
return that was left before a line end is then taken for a part of it, and an
empty line at the end is no longer read.
-/

/-- A text with a line feed between its lines. -/
def relinedChars (chars : List Char) : List Char :=
  joinLines (lineChars chars)

/-- A text with a line feed between its lines. -/
def relined : String → String := overChars relinedChars

/-- Lines that stay when they are read from a text again: none but the last ends in a carriage
return, and the last is not empty, unless it is alone. -/
structure AreRelined (lines : List (List Char)) : Prop where
  noReturn : ∀ line ∈ lines.dropLast, line.getLast? ≠ some '\r'
  filled : lines.length ≤ 1 ∨ lines.getLast? ≠ some []

instance (lines : List (List Char)) : Decidable (AreRelined lines) :=
  decidable_of_iff ((∀ line ∈ lines.dropLast, line.getLast? ≠ some '\r') ∧
    (lines.length ≤ 1 ∨ lines.getLast? ≠ some []))
    ⟨fun ⟨noReturn, filled⟩ => ⟨noReturn, filled⟩,
      fun relined => ⟨relined.noReturn, relined.filled⟩⟩

/-! ## Lines that are read again -/

/-- A line without the carriage return that would be taken for a part of its end. -/
def withoutReturn (line : List Char) : List Char :=
  (dropReturn line.reverse).reverse

/-- What is read from the text of lines. -/
def readAgain : List (List Char) → List (List Char)
  | [] => []
  | [line] => if line.isEmpty then [] else [line]
  | line :: next :: rest => withoutReturn line :: readAgain (next :: rest)

section Lines

variable {line : List Char} {lines : List (List Char)}

theorem readAgain_cons (line : List Char) (more : lines ≠ []) :
    readAgain (line :: lines) = withoutReturn line :: readAgain lines := by
  cases lines with
  | nil => exact absurd rfl more
  | cons next rest => rfl

theorem lineChars_joinLines_eq (single : ∀ line ∈ lines, '\n' ∉ line) :
    lineChars (joinLines lines) = readAgain lines := by
  induction lines with
  | nil => rfl
  | cons line rest ih =>
      obtain ⟨first, others⟩ := List.forall_mem_cons.mp single
      by_cases more : rest = []
      · rw [more, joinLines, readAgain]
        split
        · rename_i empty
          rw [List.isEmpty_iff.mp empty]
          rfl
        · rename_i filled
          exact lineChars_single first (mt List.isEmpty_iff.mpr filled)
      · rw [joinLines_cons line more, lineChars_append_newline first, ih others,
          readAgain_cons line more]
        rfl

theorem withoutReturn_append (before : List Char) (some : line ≠ []) :
    withoutReturn (before ++ line) = before ++ withoutReturn line := by
  rw [withoutReturn, withoutReturn, List.reverse_append]
  cases turned : line.reverse with
  | nil => exact absurd (List.reverse_eq_nil_iff.mp turned) some
  | cons last others =>
      by_cases isReturn : last = '\r'
      · rw [isReturn, List.cons_append, dropReturn, dropReturn, List.reverse_append,
          List.reverse_reverse]
      · rw [List.cons_append, dropReturn_of_ne isReturn, dropReturn_of_ne isReturn,
          ← List.cons_append, List.reverse_append, List.reverse_reverse]

theorem withoutReturn_eq_self_iff : withoutReturn line = line ↔ line.getLast? ≠ some '\r' := by
  rw [withoutReturn, List.reverse_eq_iff, ← List.head?_reverse]
  cases line.reverse with
  | nil => simp [dropReturn]
  | cons last others =>
      by_cases isReturn : last = '\r'
      · simp [isReturn, dropReturn]
      · simp [isReturn, dropReturn_of_ne]

theorem length_withoutReturn_le (line : List Char) : (withoutReturn line).length ≤ line.length := by
  have sameLength : line.length = line.reverse.length := List.length_reverse.symm
  rw [withoutReturn, List.length_reverse, sameLength, dropReturn.eq_def]
  split
  · rename_i rest turned
    rw [turned]
    exact Nat.le_succ _
  · exact Nat.le_refl _

/-- The text of the lines that are read again is shorter, unless it is the same. -/
theorem length_joinLines_readAgain_le (lines : List (List Char)) :
    (joinLines (readAgain lines)).length ≤ (joinLines lines).length := by
  induction lines with
  | nil => exact Nat.le_refl 0
  | cons line rest ih =>
      by_cases more : rest = []
      · rw [more, readAgain]
        split
        · exact Nat.zero_le _
        · exact Nat.le_refl _
      · have first := length_withoutReturn_le line
        rw [readAgain_cons line more, joinLines_cons line more, List.length_append,
          List.length_cons]
        by_cases none : readAgain rest = []
        · rw [none, joinLines]
          omega
        · rw [joinLines_cons _ none, List.length_append, List.length_cons]
          omega

theorem readAgain_eq_nil_iff : readAgain lines = [] ↔ lines = [] ∨ lines = [[]] := by
  cases lines with
  | nil => exact iff_of_true rfl (.inl rfl)
  | cons line rest =>
      by_cases more : rest = []
      · rw [more, readAgain, or_iff_right (List.cons_ne_nil _ _), List.cons.injEq, eq_self,
          and_true]
        cases line <;> simp
      · rw [readAgain_cons line more]
        simp [more]

theorem areRelined_cons_iff (more : lines ≠ []) :
    AreRelined (line :: lines) ↔
      line.getLast? ≠ some '\r' ∧ lines ≠ [[]] ∧ AreRelined lines := by
  obtain ⟨next, rest, rfl⟩ := List.exists_cons_of_ne_nil more
  have ends : (next :: rest).getLast? ≠ some [] ↔ next :: rest ≠ [[]] ∧
      ((next :: rest).length ≤ 1 ∨ (next :: rest).getLast? ≠ some []) := by
    cases rest <;> simp
  constructor
  · rintro ⟨noReturn, filled⟩
    obtain ⟨first, others⟩ := List.forall_mem_cons.mp noReturn
    obtain ⟨some, last⟩ := ends.mp (filled.resolve_left (by simp))
    exact ⟨first, some, others, last⟩
  · rintro ⟨first, some, others, last⟩
    exact ⟨List.forall_mem_cons.mpr ⟨first, others⟩, .inr (ends.mpr ⟨some, last⟩)⟩

/-- The text of lines that are read again is the same exactly if the lines stay. -/
theorem joinLines_readAgain_eq_iff (lines : List (List Char)) :
    joinLines (readAgain lines) = joinLines lines ↔ AreRelined lines := by
  induction lines with
  | nil => exact iff_of_true rfl ⟨fun _ absent => absurd absent List.not_mem_nil, .inl (by simp)⟩
  | cons line rest ih =>
      by_cases more : rest = []
      · rw [more]
        refine iff_of_true ?_ ⟨fun _ absent => absurd absent List.not_mem_nil, .inl (by simp)⟩
        cases line <;> rfl
      · have first := length_withoutReturn_le line
        rw [areRelined_cons_iff more, readAgain_cons line more, joinLines_cons line more, ← ih,
          ← withoutReturn_eq_self_iff]
        by_cases none : readAgain rest = []
        · have alone : rest = [[]] := (readAgain_eq_nil_iff.mp none).resolve_left more
          refine iff_of_false (fun same => ?_) fun ⟨_, filled, _⟩ => filled alone
          have lengths := congrArg List.length same
          rw [none, joinLines, List.length_append, List.length_cons] at lengths
          omega
        · rw [joinLines_cons _ none, and_iff_right fun alone =>
            none (readAgain_eq_nil_iff.mpr (.inr alone))]
          constructor
          · intro same
            have lengths := congrArg List.length same
            have less := length_joinLines_readAgain_le rest
            rw [List.length_append, List.length_append, List.length_cons, List.length_cons]
              at lengths
            obtain ⟨kept, later⟩ := List.append_inj same (by omega)
            exact ⟨kept, (List.cons.inj later).2⟩
          · rintro ⟨kept, later⟩
            rw [kept, later]

end Lines

/-! ## Margins that are put before lines and taken off -/

section Margins

variable {margin : List Char}

theorem blank_of_isMargin (isMargin : margin.all isMargin = true) :
    ∀ c ∈ margin, isBlank c = true := by
  intro c member
  have among := List.all_eq_true.mp isMargin c member
  rw [Text.isMargin, Bool.or_eq_true, beq_iff_eq, beq_iff_eq] at among
  rcases among with rfl | rfl <;> decide

theorem newline_not_mem_margin (isMargin : margin.all isMargin = true) : '\n' ∉ margin :=
  fun member => absurd (List.all_eq_true.mp isMargin '\n' member) (by decide)

theorem stripIndent_append (blank : ∀ c ∈ margin, isBlank c = true) (line : List Char) :
    stripIndent margin.length (margin ++ line) = line := by
  induction margin with
  | nil => rfl
  | cons c rest ih =>
      obtain ⟨first, others⟩ := List.forall_mem_cons.mp blank
      rw [List.cons_append, List.length_cons, stripIndent, if_pos first, ih others]

theorem stripIndent_indentFilled (blank : ∀ c ∈ margin, isBlank c = true) (line : List Char) :
    stripIndent margin.length (indentFilled margin line) = line := by
  rw [indentFilled]
  split
  · rename_i empty
    rw [List.isEmpty_iff.mp empty]
    cases margin <;> rfl
  · exact stripIndent_append blank line

theorem stripIndent_withoutReturn (blank : ∀ c ∈ margin, isBlank c = true) (line : List Char) :
    stripIndent margin.length (withoutReturn (indentFilled margin line)) = withoutReturn line := by
  rw [indentFilled]
  split
  · rename_i empty
    rw [List.isEmpty_iff.mp empty]
    cases margin <;> rfl
  · rename_i filled
    rw [withoutReturn_append margin (mt List.isEmpty_iff.mpr filled), stripIndent_append blank]

theorem isEmpty_indentFilled (margin line : List Char) :
    (indentFilled margin line).isEmpty = line.isEmpty := by
  rw [indentFilled]
  split
  · rename_i empty
    rw [empty]
    rfl
  · rename_i filled
    rw [Bool.eq_false_iff.mpr filled]
    exact List.isEmpty_eq_false_iff.mpr
      (List.append_ne_nil_of_right_ne_nil margin (mt List.isEmpty_iff.mpr filled))

/-- Lines that get a margin and lose it again are as they would be without it. -/
theorem map_readAgain_indentFilled (blank : ∀ c ∈ margin, isBlank c = true)
    (lines : List (List Char)) :
    (readAgain (lines.map (indentFilled margin))).map (stripIndent margin.length) =
      readAgain lines := by
  induction lines with
  | nil => rfl
  | cons line rest ih =>
      by_cases more : rest = []
      · rw [more, List.map_singleton, readAgain, readAgain, isEmpty_indentFilled]
        split
        · rfl
        · rw [List.map_singleton, stripIndent_indentFilled blank]
      · rw [List.map_cons, readAgain_cons _ (by simpa using more), readAgain_cons _ more,
          List.map_cons, stripIndent_withoutReturn blank, ih]

theorem changeBehind_readAgain (blank : ∀ c ∈ margin, isBlank c = true)
    (lines : List (List Char)) :
    changeBehind (stripIndent margin.length)
      (readAgain (changeBehind (indentFilled margin) lines)) = readAgain lines := by
  cases lines with
  | nil => rfl
  | cons first others =>
      rw [changeBehind]
      by_cases more : others = []
      · rw [more, List.map_nil, readAgain]
        split <;> rfl
      · rw [readAgain_cons _ (by simpa using more), readAgain_cons _ more, changeBehind,
          map_readAgain_indentFilled blank]

theorem newline_not_mem_indentFilled (isMargin : margin.all isMargin = true) {line : List Char}
    (single : '\n' ∉ line) : '\n' ∉ indentFilled margin line := by
  rw [indentFilled]
  split
  · exact List.not_mem_nil
  · rw [List.mem_append, not_or]
    exact ⟨newline_not_mem_margin isMargin, single⟩

/-- A text that gets a margin and loses it again has its line ends unified twice. -/
theorem dedentContinuationChars_indentContinuationChars
    (isMargin : margin.all isMargin = true) (chars : List Char) :
    dedentContinuationChars margin.length (indentContinuationChars margin chars) =
      relinedChars (relinedChars chars) := by
  have read : ∀ line ∈ lineChars chars, '\n' ∉ line :=
    fun line member => newline_not_mem_lineChars member
  have single : ∀ line ∈ changeBehind (indentFilled margin) (lineChars chars), '\n' ∉ line := by
    cases lines : lineChars chars with
    | nil => exact fun _ absent => absurd absent List.not_mem_nil
    | cons first others =>
        rw [lines] at read
        obtain ⟨inFirst, inOthers⟩ := List.forall_mem_cons.mp read
        exact List.forall_mem_cons.mpr ⟨inFirst, List.forall_mem_map.mpr fun line member =>
          newline_not_mem_indentFilled isMargin (inOthers line member)⟩
  rw [indentContinuationChars_eq, dedentContinuationChars_eq, lineChars_joinLines_eq single,
    changeBehind_readAgain (blank_of_isMargin isMargin), relinedChars, relinedChars,
    lineChars_joinLines_eq read]

end Margins

/-! ## Texts -/

theorem relinedChars_relinedChars (chars : List Char) :
    relinedChars (relinedChars chars) = joinLines (readAgain (lineChars chars)) := by
  rw [relinedChars, relinedChars,
    lineChars_joinLines_eq fun line member => newline_not_mem_lineChars member]

/-- To unify the line ends once more changes nothing exactly if the lines stay. -/
theorem relined_relined_iff (text : String) :
    relined (relined text) = relined text ↔ AreRelined (lineChars text.toList) := by
  rw [← String.toList_inj, relined, toList_overChars, toList_overChars, relinedChars_relinedChars]
  exact joinLines_readAgain_eq_iff _

/-- What begins with a text whose line ends are unified twice begins with the text whose line ends
are unified once only if the second time took nothing off but the end. -/
theorem relinedChars_prefix_of_prefix {text : String} {chars : List Char}
    (twice : (relined (relined text)).toList <+: chars)
    (once : (relined text).toList <+: chars) :
    relinedChars (relinedChars text.toList) <+: relinedChars text.toList := by
  rw [relined, toList_overChars, toList_overChars] at twice
  rw [relined, toList_overChars] at once
  refine List.prefix_of_prefix_length_le twice once ?_
  rw [relinedChars_relinedChars]
  exact length_joinLines_readAgain_le _

theorem dedentContinuation_indentContinuation {margin : List Char}
    (isMargin : margin.all isMargin = true) (text : String) :
    dedentContinuation margin.length (indentContinuation (String.ofList margin) text) =
      relined (relined text) := by
  rw [← String.toList_inj, dedentContinuation, indentContinuation, relined, toList_overChars,
    toList_overChars, toList_overChars, toList_overChars, String.toList_ofList]
  exact dedentContinuationChars_indentContinuationChars isMargin text.toList

theorem joinLines_prefix (above : List (List Char)) (line stop : List Char)
    (below : List (List Char)) :
    joinLines (above ++ [line]) <+: joinLines (above ++ (line ++ stop) :: below) := by
  induction above with
  | nil =>
      rw [List.nil_append, List.nil_append, joinLines_front]
      exact List.prefix_append line _
  | cons first others ih =>
      rw [List.cons_append, List.cons_append, joinLines_cons _ (by simp),
        joinLines_cons _ (by simp)]
      exact List.prefix_append_right_inj _ |>.mpr (List.cons_prefix_cons.mpr ⟨rfl, ih⟩)

/-- A text that ends in a character which stays goes on to be the beginning of a longer one when
the lines of both are moved out. -/
theorem Ends.dedentContinuation_prefix {inner : List Char} (ends : Ends inner) (column : Nat)
    (rest : List Char) :
    dedentContinuationChars column inner <+: dedentContinuationChars column (inner ++ rest) := by
  obtain ⟨above, last, stop, below, own, whole, lastEnds⟩ := exists_lineChars_behind ends rest
  rw [dedentContinuationChars_eq, dedentContinuationChars_eq, own, whole]
  cases above with
  | nil => exact joinLines_prefix [] last stop _
  | cons first others =>
      rw [List.cons_append, List.cons_append, changeBehind, changeBehind, List.map_append,
        List.map_append, List.map_cons (l := below), List.map_singleton,
        lastEnds.stripIndent_append]
      exact joinLines_prefix (first :: others.map (stripIndent column)) _ stop _

end Text
end Hookify
