import Hookify.Proofs.Text.Frames
import Mathlib.Data.List.DropRight

namespace Hookify
namespace Text

/-!
# Texts that normal forms keep

Which texts the normal forms leave as they are can be told line by line.  A text
without carriage returns is the text of its lines, and lines are read from their
text again.  So a normal form keeps the text exactly if it keeps the lines: if
it drops none of them, and changes none.

A text that has been brought to the normal form is kept by it, whatever it was
before.  Its lines are trimmed, so that a carriage return inside of one is never
taken for a part of its end; the blank ones among them are single and empty, and
stay so when the others are moved out; and one of the others has no indentation.
-/

/-! ## Lines and their text -/

/-- A line in which no line ends. -/
def IsLine (line : List Char) : Prop :=
  ∀ c ∈ line, c ≠ '\n' ∧ c ≠ '\r'

/-- Lines as they are read from a text without carriage returns. -/
def AreLines (lines : List (List Char)) : Prop :=
  ∀ line ∈ lines, IsLine line

/-- A line that is read again as it stands: none of its characters would be taken for an end. -/
def IsWhole (line : List Char) : Prop :=
  '\n' ∉ line ∧ line.getLast? ≠ some '\r'

section Lines

variable {line chars : List Char} {lines : List (List Char)}

theorem IsLine.single (isLine : IsLine line) : '\n' ∉ line :=
  fun member => (isLine '\n' member).1 rfl

theorem IsLine.isWhole (isLine : IsLine line) : IsWhole line :=
  ⟨isLine.single, fun last => (isLine '\r' (List.mem_of_getLast? last)).2 rfl⟩

theorem AreLines.areWhole (areLines : AreLines lines) : ∀ line ∈ lines, IsWhole line :=
  fun line member => (areLines line member).isWhole

theorem IsWhole.dropReturn_reverse (isWhole : IsWhole line) :
    (dropReturn line.reverse).reverse = line := by
  cases turned : line.reverse with
  | nil =>
      rw [dropReturn, ← turned, List.reverse_reverse]
      exact fun _ same => List.cons_ne_nil _ _ same.symm
  | cons c rest =>
      have last : line.getLast? = some c := by
        rw [← List.head?_reverse, turned, List.head?_cons]
      rw [dropReturn_of_ne fun same => isWhole.2 (same ▸ last), ← turned, List.reverse_reverse]

theorem IsLine.sublist {other : List Char} (isLine : IsLine line) (part : other.Sublist line) :
    IsLine other :=
  fun c member => isLine c (part.subset member)

/-- Lines of which the last is not empty are read from their text again. -/
theorem lineChars_joinLines (areWhole : ∀ line ∈ lines, IsWhole line)
    (filled : ∀ last ∈ lines.getLast?, last ≠ []) : lineChars (joinLines lines) = lines := by
  induction lines with
  | nil => rfl
  | cons line rest ih =>
      have isWhole := areWhole line List.mem_cons_self
      by_cases more : rest = []
      · rw [more] at filled ⊢
        exact lineChars_single isWhole.1 (filled line rfl)
      · have last : (line :: rest).getLast? = rest.getLast? := by
          rw [List.getLast?_cons, List.getLast?_eq_some_getLast more]
          rfl
        rw [joinLines_cons line more, lineChars_append_newline isWhole.1,
          isWhole.dropReturn_reverse, ih (fun other member => areWhole other
            (List.mem_cons_of_mem line member)) (last ▸ filled)]

/-- A text without carriage returns is the text of its lines. -/
theorem joinLines_lineChars (ends : Ends chars) (noReturn : '\r' ∉ chars) :
    joinLines (lineChars chars) = chars ∧ AreLines (lineChars chars) := by
  induction size : chars.length using Nat.strongRecOn generalizing chars with
  | ind bound ih =>
      have isLine : ∀ {part : List Char}, part.Sublist chars → '\n' ∉ part → IsLine part :=
        fun within single c member =>
          ⟨fun same => single (same ▸ member), fun same => noReturn (within.subset (same ▸ member))⟩
      rcases firstLine_cases chars with single | ⟨line, rest, rfl, single⟩
      · rw [lineChars_single single ends.ne_nil]
        refine ⟨rfl, fun line member => List.mem_singleton.mp member ▸ isLine (List.Sublist.refl _)
          single⟩
      · have first : IsLine line := isLine (List.sublist_append_left _ _) single
        have later : Ends rest := (ends.of_append (List.cons_ne_nil _ _)).of_cons (by decide)
        obtain ⟨same, others⟩ := ih rest.length
          (by rw [← size, List.length_append, List.length_cons]; omega) later
          (fun member => noReturn (List.mem_append_right _ (List.mem_cons_of_mem _ member))) rfl
        have more : lineChars rest ≠ [] := by
          rintro none
          rw [none] at same
          exact later.ne_nil same.symm
        rw [lineChars_append_newline single, first.isWhole.dropReturn_reverse,
          joinLines_cons line more, same]
        exact ⟨rfl, List.forall_mem_cons.mpr ⟨first, others⟩⟩

/-- The last line of a part is not empty. -/
theorem Frame.getLast_ne_nil {whole : List (List Char)} (frame : Frame whole lines) :
    ∀ last ∈ lines.getLast?, last ≠ [] := by
  cases frame with
  | one starts ends =>
      rintro last same
      rw [← Option.some.inj same]
      exact ends.ne_nil
  | @more above between below start first last stop starts ends =>
      rintro other same
      rw [← List.cons_append, List.getLast?_concat] at same
      rw [← Option.some.inj same]
      exact ends.ne_nil

/-- A framed text has certain lines exactly if these are the lines that are read from it. -/
theorem IsFramed.joinLines_eq_iff (framed : IsFramed chars) (noReturn : '\r' ∉ chars)
    (areLines : AreLines lines) (filled : ∀ last ∈ lines.getLast?, last ≠ []) :
    joinLines lines = chars ↔ lines = lineChars chars :=
  ⟨fun same => same ▸ (lineChars_joinLines areLines.areWhole filled).symm,
    fun same => same ▸ (joinLines_lineChars framed.ends noReturn).1⟩

end Lines

/-! ## Lines that are kept -/

section Kept

variable {line : List Char} {lines : List (List Char)}

theorem stripIndent_suffix (width : Nat) (line : List Char) : stripIndent width line <:+ line := by
  induction width generalizing line with
  | zero => exact List.suffix_rfl
  | succ width ih =>
      cases line with
      | nil => exact List.suffix_rfl
      | cons c rest =>
          rw [stripIndent]
          split
          · exact (ih rest).trans (List.suffix_cons c rest)
          · exact List.suffix_rfl

theorem trimEndChars_sublist (line : List Char) : (trimEndChars line).Sublist line := by
  rw [trimEndChars, ← List.reverse_sublist, List.reverse_reverse]
  exact List.dropWhile_sublist _

theorem AreLines.changeBehind (areLines : AreLines lines) {change : List Char → List Char}
    (stays : ∀ line, IsLine line → IsLine (change line)) :
    AreLines (changeBehind change lines) := by
  cases lines with
  | nil => exact areLines
  | cons first others =>
      obtain ⟨isLine, areOthers⟩ := List.forall_mem_cons.mp areLines
      exact List.forall_mem_cons.mpr ⟨isLine, List.forall_mem_map.mpr fun line member =>
        stays line (areOthers line member)⟩

/-- Squeezing takes characters from the ends of lines, and takes lines away. -/
theorem exists_sublist_of_mem_squeezeLines {blankBefore : Bool}
    (member : line ∈ squeezeLines blankBefore lines) : ∃ other ∈ lines, line.Sublist other := by
  induction lines generalizing blankBefore with
  | nil => exact absurd member List.not_mem_nil
  | cons first others ih =>
      have later : ∀ {before}, line ∈ squeezeLines before others →
          ∃ other ∈ first :: others, line.Sublist other := fun inside =>
        let ⟨other, among, part⟩ := ih inside
        ⟨other, List.mem_cons_of_mem first among, part⟩
      rw [squeezeLines] at member
      split at member
      · split at member
        · exact later member
        · rcases List.mem_cons.mp member with rfl | inside
          · exact ⟨first, List.mem_cons_self, List.nil_sublist first⟩
          · exact later inside
      · rcases List.mem_cons.mp member with rfl | inside
        · exact ⟨first, List.mem_cons_self, trimEndChars_sublist first⟩
        · exact later inside

theorem AreLines.squeezeLines (areLines : AreLines lines) (blankBefore : Bool) :
    AreLines (squeezeLines blankBefore lines) := by
  intro line member
  obtain ⟨other, among, part⟩ := exists_sublist_of_mem_squeezeLines member
  exact (areLines other among).sublist part

theorem isLine_stripIndent (width : Nat) (line : List Char) (isLine : IsLine line) :
    IsLine (stripIndent width line) :=
  isLine.sublist (stripIndent_suffix width line).sublist

theorem isLine_stripFilled (width : Nat) (line : List Char) (isLine : IsLine line) :
    IsLine (stripFilled width line) := by
  rw [stripFilled]
  split
  · exact fun _ absent => absurd absent List.not_mem_nil
  · exact isLine_stripIndent width line isLine

theorem isLine_indentFilled {margin : List Char} (isMargin : IsLine margin) (line : List Char)
    (isLine : IsLine line) : IsLine (indentFilled margin line) := by
  rw [indentFilled]
  split
  · exact fun _ absent => absurd absent List.not_mem_nil
  · exact List.forall_mem_append.mpr ⟨isMargin, isLine⟩

theorem length_squeezeLines_le (blankBefore : Bool) (lines : List (List Char)) :
    (squeezeLines blankBefore lines).length ≤ lines.length := by
  induction lines generalizing blankBefore with
  | nil => exact Nat.le_refl 0
  | cons line rest ih =>
      rw [squeezeLines]
      split
      · split
        · exact Nat.le_succ_of_le (ih true)
        · exact Nat.succ_le_succ (ih true)
      · exact Nat.succ_le_succ (ih false)

/-- If no line is dropped, every line is trimmed. -/
theorem squeezeLines_eq_map {blankBefore : Bool}
    (same : (squeezeLines blankBefore lines).length = lines.length) :
    squeezeLines blankBefore lines = lines.map trimEndChars := by
  induction lines generalizing blankBefore with
  | nil => rfl
  | cons line rest ih =>
      rw [squeezeLines] at same ⊢
      split at same
      · rename_i empty
        rw [if_pos empty]
        split at same
        · have less := length_squeezeLines_le true rest
          rw [same, List.length_cons] at less
          exact absurd less (Nat.not_succ_le_self _)
        · rename_i filled
          rw [if_neg filled, ih (Nat.succ.inj same), List.map_cons, List.isEmpty_iff.mp empty]
      · rename_i filled
        rw [if_neg filled, ih (Nat.succ.inj same), List.map_cons]

theorem map_eq_self_iff {change : List Char → List Char} :
    lines.map change = lines ↔ ∀ line ∈ lines, change line = line := by
  have same := @List.map_inj_left _ _ lines change id
  rwa [List.map_id] at same

theorem changeBehind_eq_iff {change : List Char → List Char} :
    changeBehind change lines = lines ↔ ∀ line ∈ lines.tail, change line = line := by
  cases lines with
  | nil => exact iff_of_true rfl fun _ absent => absurd absent List.not_mem_nil
  | cons first others =>
      rw [changeBehind, List.cons.injEq, eq_self, true_and, List.tail_cons]
      exact map_eq_self_iff

/-- Squeezed lines that are changed are as before exactly if none is squeezed and none is changed,
for a change that adds no blanks to the end of a line. -/
theorem changeBehind_squeezeLines_eq_iff {change : List Char → List Char}
    (trims : ∀ line, trimEndChars (change (trimEndChars line)) = change (trimEndChars line)) :
    changeBehind change (squeezeLines true lines) = lines ↔
      squeezeLines true lines = lines ∧ ∀ line ∈ lines.tail, change line = line := by
  constructor
  · intro kept
    have long : (squeezeLines true lines).length = lines.length := by
      conv_rhs => rw [← kept]
      cases squeezeLines true lines <;> simp [changeBehind]
    have mapped := squeezeLines_eq_map long
    have trimmed : squeezeLines true lines = lines := by
      rw [mapped] at kept ⊢
      cases lines with
      | nil => rfl
      | cons first others =>
          rw [List.map_cons, changeBehind, List.cons.injEq, List.map_map] at kept
          rw [List.map_cons, kept.1, map_eq_self_iff.mpr fun line member => ?_]
          have same : change (trimEndChars line) = line := map_eq_self_iff.mp kept.2 line member
          have trims := trims line
          rwa [same] at trims
    rw [trimmed] at kept
    exact ⟨trimmed, changeBehind_eq_iff.mp kept⟩
  · rintro ⟨squeezed, kept⟩
    rw [squeezed]
    exact changeBehind_eq_iff.mpr kept

theorem trimEndChars_idem (line : List Char) :
    trimEndChars (trimEndChars line) = trimEndChars line :=
  List.rdropWhile_idempotent isBlank line

/-- A line is trimmed if one of its ends is, and that is not empty. -/
theorem trimEnd_append_of_trimmed (before : List Char) (some : line ≠ [])
    (trimmed : trimEndChars line = line) : trimEndChars (before ++ line) = before ++ line := by
  refine List.rdropWhile_eq_self_iff.mpr fun more => ?_
  rw [List.getLast_append_of_ne_nil more some]
  exact List.rdropWhile_eq_self_iff.mp trimmed some

theorem trimEnd_of_suffix {part : List Char} (suffix : part <:+ line)
    (trimmed : trimEndChars line = line) : trimEndChars part = part := by
  refine List.rdropWhile_eq_self_iff.mpr fun some => ?_
  rw [suffix.getLast some]
  exact List.rdropWhile_eq_self_iff.mp trimmed _

theorem trimEnd_stripFilled (width : Nat) (line : List Char) :
    trimEndChars (stripFilled width (trimEndChars line)) = stripFilled width (trimEndChars line) := by
  rw [stripFilled]
  split
  · rfl
  · exact trimEnd_of_suffix (stripIndent_suffix width _) (trimEndChars_idem line)

theorem trimEnd_indentFilled (margin : List Char) (trimmed : trimEndChars line = line) :
    trimEndChars (indentFilled margin line) = indentFilled margin line := by
  rw [indentFilled]
  split
  · rfl
  · rename_i filled
    exact trimEnd_append_of_trimmed margin (mt List.isEmpty_iff.mpr filled) trimmed

theorem stripIndent_eq_self_iff {width : Nat} :
    stripIndent width line = line ↔ width = 0 ∨ indentWidth line = 0 := by
  cases width with
  | zero => exact iff_of_true rfl (.inl rfl)
  | succ width =>
      rw [or_iff_right (Nat.succ_ne_zero width)]
      cases line with
      | nil => exact iff_of_true rfl rfl
      | cons c rest =>
          rw [stripIndent, indentWidth, List.takeWhile_cons]
          cases isBlank c with
          | false => simp
          | true =>
              refine iff_of_false (fun same => ?_) (by simp)
              have shorter := (stripIndent_suffix width rest).length_le
              rw [if_pos rfl] at same
              rw [same, List.length_cons] at shorter
              exact absurd shorter (Nat.not_succ_le_self _)

theorem isBlankChars_stripIndent (width : Nat) (line : List Char) :
    isBlankChars (stripIndent width line) = isBlankChars line := by
  induction width generalizing line with
  | zero => rfl
  | succ width ih =>
      cases line with
      | nil => rfl
      | cons c rest =>
          rw [stripIndent]
          split
          · rename_i blank
            rw [ih, isBlankChars, isBlankChars, List.all_cons, blank, Bool.true_and]
          · rfl

theorem isBlankChars_of_stripIndent_eq_nil {width : Nat} (empty : stripIndent width line = []) :
    isBlankChars line = true := by
  rw [← isBlankChars_stripIndent width, empty]
  rfl

/-- Squeezed lines are trimmed, so that a blank one is empty. -/
theorem trimEnd_of_squeezed (squeezed : squeezeLines true lines = lines) (member : line ∈ lines) :
    trimEndChars line = line := by
  have mapped := squeezeLines_eq_map (congrArg List.length squeezed)
  exact map_eq_self_iff.mp (mapped ▸ squeezed) line member

theorem eq_nil_of_blank (trimmed : trimEndChars line = line) (blank : isBlankChars line = true) :
    line = [] := by
  rw [← trimmed]
  exact List.rdropWhile_eq_nil_iff.mpr (List.all_eq_true.mp blank)

end Kept

/-! ## Texts that are kept -/

namespace IsFramed

variable {chars : List Char}

/-- Moving lines out keeps a text exactly if its other lines begin with no blanks. -/
theorem dedentContinuation_eq_iff (framed : IsFramed chars) (noReturn : '\r' ∉ chars)
    (column : Nat) : dedentContinuationChars column chars = chars ↔
      ∀ line ∈ (lineChars chars).tail, column = 0 ∨ indentWidth line = 0 := by
  have areLines := (joinLines_lineChars framed.ends noReturn).2
  have frame := (frame_lineChars framed List.infix_rfl).changeBehind (isShift_stripIndent column)
  rw [dedentContinuationChars_eq, framed.joinLines_eq_iff noReturn
    (areLines.changeBehind (isLine_stripIndent column)) frame.getLast_ne_nil, changeBehind_eq_iff]
  simp only [stripIndent_eq_self_iff]

theorem tidy_eq_self_iff (framed : IsFramed chars) (noReturn : '\r' ∉ chars) :
    tidyChars chars = chars ↔ squeezeLines true (lineChars chars) = lineChars chars := by
  have areLines := (joinLines_lineChars framed.ends noReturn).2
  have frame := (frame_lineChars framed List.infix_rfl).squeeze true
  rw [framed.tidy_eq, framed.joinLines_eq_iff noReturn (areLines.squeezeLines true)
    frame.getLast_ne_nil]

/-- The lines of a tidied text, moved out. -/
theorem dedentBehind_tidy (framed : IsFramed chars) (noReturn : '\r' ∉ chars) (width : Nat) :
    dedentBehindChars width (tidyChars chars) =
      joinLines (changeBehind (stripFilled width) (squeezeLines true (lineChars chars))) := by
  have areLines := (joinLines_lineChars framed.ends noReturn).2
  have frame := (frame_lineChars framed List.infix_rfl).squeeze true
  rw [dedentBehindChars, framed.tidy_eq,
    lineChars_joinLines (areLines.squeezeLines true).areWhole frame.getLast_ne_nil]

/-- A block keeps a text exactly if it is tidy and its other lines are not moved. -/
theorem dedentBehind_tidy_eq_iff (framed : IsFramed chars) (noReturn : '\r' ∉ chars)
    (width : Nat) : dedentBehindChars width (tidyChars chars) = chars ↔
      tidyChars chars = chars ∧ ∀ line ∈ (lineChars chars).tail, width = 0 ∨ indentWidth line = 0 := by
  have areLines := (joinLines_lineChars framed.ends noReturn).2
  have frame := ((frame_lineChars framed List.infix_rfl).squeeze true).changeBehind
    (isShift_stripFilled width)
  rw [framed.dedentBehind_tidy noReturn, framed.joinLines_eq_iff noReturn
    ((areLines.squeezeLines true).changeBehind (isLine_stripFilled width)) frame.getLast_ne_nil,
    changeBehind_squeezeLines_eq_iff (trimEnd_stripFilled width), framed.tidy_eq_self_iff noReturn]
  refine and_congr_right fun squeezed => forall₂_congr fun line member => ?_
  rw [← stripIndent_eq_self_iff, stripFilled]
  split
  · rename_i blank
    have trimmed := trimEnd_of_squeezed squeezed (List.mem_of_mem_tail member)
    rw [eq_nil_of_blank trimmed blank]
    exact iff_of_true rfl (by cases width <;> rfl)
  · rfl

/-- The printer keeps a text exactly if it is tidy and its other lines get the margin back that they
lose. -/
theorem indentContinuation_dedentBehind_tidy_eq_iff (framed : IsFramed chars)
    (noReturn : '\r' ∉ chars) {margin : List Char} (isMargin : IsLine margin) (width : Nat) :
    indentContinuationChars margin (dedentBehindChars width (tidyChars chars)) = chars ↔
      tidyChars chars = chars ∧ ∀ line ∈ (lineChars chars).tail,
        line ≠ [] → margin ++ stripIndent width line = line := by
  have areLines := ((joinLines_lineChars framed.ends noReturn).2.squeezeLines true).changeBehind
    (isLine_stripFilled width)
  have dedented := ((frame_lineChars framed List.infix_rfl).squeeze true).changeBehind
    (isShift_stripFilled width)
  have frame := dedented.changeBehind (isShift_indentFilled margin)
  have twice : ∀ lines, changeBehind (indentFilled margin) (changeBehind (stripFilled width) lines) =
      changeBehind (indentFilled margin ∘ stripFilled width) lines := by
    intro lines
    cases lines with
    | nil => rfl
    | cons first others => rw [changeBehind, changeBehind, changeBehind, List.map_map]
  have trims : ∀ line, trimEndChars ((indentFilled margin ∘ stripFilled width) (trimEndChars line)) =
      (indentFilled margin ∘ stripFilled width) (trimEndChars line) :=
    fun line => trimEnd_indentFilled margin (trimEnd_stripFilled width line)
  rw [indentContinuationChars_eq, framed.dedentBehind_tidy noReturn,
    lineChars_joinLines areLines.areWhole dedented.getLast_ne_nil, framed.joinLines_eq_iff noReturn
      (areLines.changeBehind (isLine_indentFilled isMargin)) frame.getLast_ne_nil, twice,
    changeBehind_squeezeLines_eq_iff trims, framed.tidy_eq_self_iff noReturn]
  refine and_congr_right fun squeezed => forall₂_congr fun line member => ?_
  have trimmed := trimEnd_of_squeezed squeezed (List.mem_of_mem_tail member)
  rw [Function.comp_apply]
  by_cases empty : line = []
  · rw [empty]
    exact iff_of_true rfl fun some => absurd rfl some
  · have filled : ¬ isBlankChars line = true := mt (eq_nil_of_blank trimmed) empty
    have stripped : stripIndent width line ≠ [] := mt isBlankChars_of_stripIndent_eq_nil filled
    rw [stripFilled, if_neg filled, indentFilled, if_neg (mt List.isEmpty_iff.mp stripped)]
    exact ⟨fun same _ => same, fun same => same empty⟩

end IsFramed

/-! ## Texts in normal form -/

/-- Lines without line feeds that are trimmed, and of which an empty one does not come first, last
or behind another empty one. -/
structure AreTidy (lines : List (List Char)) : Prop where
  single : ∀ line ∈ lines, '\n' ∉ line
  squeezed : squeezeLines true lines = lines
  filled : ∀ last ∈ lines.getLast?, last ≠ []

section Normal

variable {line chars : List Char} {lines : List (List Char)}

theorem newline_not_mem_linesFrom (chars : List Char) :
    ∀ current, '\n' ∉ current → ∀ line ∈ linesFrom current chars, '\n' ∉ line := by
  induction chars with
  | nil =>
      intro current single line member
      rw [linesFrom] at member
      split at member
      · exact absurd member List.not_mem_nil
      · rw [List.mem_singleton.mp member, List.mem_reverse]
        exact single
  | cons c rest ih =>
      intro current single line member
      rw [linesFrom] at member
      split at member
      · rcases List.mem_cons.mp member with rfl | later
        · rw [List.mem_reverse, dropReturn.eq_def]
          split
          · exact fun inside => single (List.mem_cons_of_mem _ inside)
          · exact single
        · exact ih [] List.not_mem_nil line later
      · rename_i other
        rw [beq_iff_eq] at other
        refine ih (c :: current) ?_ line member
        rw [List.mem_cons, not_or]
        exact ⟨fun same => other same.symm, single⟩

theorem newline_not_mem_lineChars (member : line ∈ lineChars chars) : '\n' ∉ line :=
  newline_not_mem_linesFrom chars [] List.not_mem_nil line member

/-- A line that has been trimmed ends in no carriage return. -/
theorem isWhole_of_trimmed (single : '\n' ∉ line) (trimmed : trimEndChars line = line) :
    IsWhole line := by
  refine ⟨single, fun last => ?_⟩
  have some : line ≠ [] := by
    rintro rfl
    cases last
  have firm := List.rdropWhile_eq_self_iff.mp trimmed some
  rw [List.getLast?_eq_some_getLast some, Option.some.injEq] at last
  rw [last] at firm
  exact firm (by decide)

/-! ### Tidy lines -/

theorem squeezeLines_idem (blankBefore : Bool) (lines : List (List Char)) :
    squeezeLines blankBefore (squeezeLines blankBefore lines) =
      squeezeLines blankBefore lines := by
  induction lines generalizing blankBefore with
  | nil => rfl
  | cons line rest ih =>
      rw [squeezeLines]
      split
      · split
        · rename_i before
          rw [before]
          exact ih true
        · rename_i notBefore
          have blank : (trimEndChars ([] : List Char)).isEmpty = true := rfl
          rw [squeezeLines, if_pos blank, if_neg notBefore, ih true]
      · rename_i filled
        rw [squeezeLines, trimEndChars_idem, if_neg filled, ih false]

/-- What a line that is kept tells of itself and of the lines below it. -/
theorem squeezeLines_cons_eq_iff {blankBefore : Bool} :
    squeezeLines blankBefore (line :: lines) = line :: lines ↔
      trimEndChars line = line ∧ (line = [] → blankBefore = false) ∧
        squeezeLines line.isEmpty lines = lines := by
  constructor
  · intro same
    rw [squeezeLines] at same
    split at same
    · split at same
      · have less := length_squeezeLines_le true lines
        rw [same, List.length_cons] at less
        exact absurd less (Nat.not_succ_le_self _)
      · rename_i notBefore
        obtain ⟨rfl, below⟩ := List.cons.inj same
        exact ⟨rfl, fun _ => Bool.eq_false_iff.mpr notBefore, below⟩
    · rename_i filled
      obtain ⟨trimmed, below⟩ := List.cons.inj same
      rw [trimmed] at filled
      exact ⟨trimmed, fun empty => absurd (List.isEmpty_iff.mpr empty) filled,
        (Bool.eq_false_iff.mpr filled) ▸ below⟩
  · rintro ⟨trimmed, single, below⟩
    rw [squeezeLines, trimmed]
    split
    · rename_i blank
      rw [blank] at below
      rw [single (List.isEmpty_iff.mp blank), if_neg Bool.false_ne_true, below,
        List.isEmpty_iff.mp blank]
    · rename_i filled
      rw [Bool.eq_false_iff.mpr filled] at below
      rw [below]

/-- Squeezed lines are squeezed no further, up to any one of them. -/
theorem squeezeLines_of_append {blankBefore : Bool} {below : List (List Char)}
    (squeezed : squeezeLines blankBefore (lines ++ below) = lines ++ below) :
    squeezeLines blankBefore lines = lines := by
  induction lines generalizing blankBefore with
  | nil => rfl
  | cons line rest ih =>
      obtain ⟨trimmed, single, later⟩ := squeezeLines_cons_eq_iff.mp squeezed
      exact squeezeLines_cons_eq_iff.mpr ⟨trimmed, single, ih later⟩

/-- Lines stay squeezed if they stay trimmed, and the same ones are empty. -/
theorem squeezeLines_map {blankBefore : Bool} {change : List Char → List Char}
    (stays : ∀ line, trimEndChars line = line →
      trimEndChars (change line) = change line ∧ (change line).isEmpty = line.isEmpty)
    (squeezed : squeezeLines blankBefore lines = lines) :
    squeezeLines blankBefore (lines.map change) = lines.map change := by
  induction lines generalizing blankBefore with
  | nil => rfl
  | cons line rest ih =>
      obtain ⟨trimmed, single, later⟩ := squeezeLines_cons_eq_iff.mp squeezed
      obtain ⟨changed, empty⟩ := stays line trimmed
      refine squeezeLines_cons_eq_iff.mpr ⟨changed, fun none => ?_, empty ▸ ih later⟩
      rw [← List.isEmpty_iff, empty, List.isEmpty_iff] at none
      exact single none

theorem exists_dropTrailingEmpty (lines : List (List Char)) :
    ∃ below, lines = dropTrailingEmpty lines ++ below := by
  obtain ⟨front, same⟩ := List.dropWhile_suffix (l := lines.reverse) List.isEmpty
  refine ⟨front.reverse, ?_⟩
  rw [dropTrailingEmpty, ← List.reverse_append, same, List.reverse_reverse]

theorem getLast?_dropTrailingEmpty (lines : List (List Char)) :
    ∀ last ∈ (dropTrailingEmpty lines).getLast?, last ≠ [] := by
  rw [dropTrailingEmpty, List.getLast?_reverse]
  intro last isLast empty
  have kept := List.head?_dropWhile_not List.isEmpty lines.reverse
  rw [isLast, empty] at kept
  cases kept

theorem dropTrailingEmpty_of_filled (filled : ∀ last ∈ lines.getLast?, last ≠ []) :
    dropTrailingEmpty lines = lines := by
  rcases List.eq_nil_or_concat lines with rfl | ⟨front, last, rfl⟩
  · rfl
  · rw [List.concat_eq_append] at filled ⊢
    exact dropTrailingEmpty_append (filled last List.getLast?_concat) front []

theorem areTidy_of_lines (single : ∀ line ∈ lines, '\n' ∉ line) :
    AreTidy (dropTrailingEmpty (squeezeLines true lines)) := by
  obtain ⟨below, whole⟩ := exists_dropTrailingEmpty (squeezeLines true lines)
  have squeezed := squeezeLines_idem true lines
  rw [whole] at squeezed
  refine ⟨fun line member => ?_, squeezeLines_of_append squeezed, getLast?_dropTrailingEmpty _⟩
  · have among : line ∈ squeezeLines true lines := whole ▸ List.mem_append_left below member
    obtain ⟨other, inside, part⟩ := exists_sublist_of_mem_squeezeLines among
    exact fun newline => single other inside (part.subset newline)

namespace AreTidy

theorem trimmed (areTidy : AreTidy lines) (member : line ∈ lines) : trimEndChars line = line :=
  trimEnd_of_squeezed areTidy.squeezed member

/-- Tidy lines are read from their text again. -/
theorem lineChars_eq (areTidy : AreTidy lines) : lineChars (joinLines lines) = lines :=
  lineChars_joinLines (fun line member =>
    isWhole_of_trimmed (areTidy.single line member) (areTidy.trimmed member)) areTidy.filled

theorem tidyChars_eq (areTidy : AreTidy lines) : tidyChars (joinLines lines) = joinLines lines := by
  rw [tidyChars, areTidy.lineChars_eq, areTidy.squeezed, dropTrailingEmpty_of_filled areTidy.filled]

theorem dedentChars_eq (areTidy : AreTidy lines) :
    dedentChars (joinLines lines) = joinLines (lines.map (stripFilled (commonIndent lines))) := by
  rw [dedentChars, areTidy.lineChars_eq]
  rfl

end AreTidy

theorem exists_areTidy (chars : List Char) :
    ∃ lines, AreTidy lines ∧ tidyChars chars = joinLines lines :=
  ⟨_, areTidy_of_lines fun _ member => newline_not_mem_lineChars member, rfl⟩

/-! ### Lines without a common indentation -/

theorem indentWidth_stripIndent (width : Nat) (line : List Char) :
    indentWidth (stripIndent width line) = indentWidth line - width := by
  induction width generalizing line with
  | zero => rfl
  | succ width ih =>
      cases line with
      | nil => exact (Nat.zero_sub _).symm
      | cons c rest =>
          rw [stripIndent, indentWidth, indentWidth, List.takeWhile_cons]
          split
          · rw [← indentWidth, ih, indentWidth, List.length_cons, Nat.add_sub_add_right]
          · rename_i firm
            rw [List.takeWhile_cons_of_neg firm, List.length_nil, Nat.zero_sub]

theorem isBlankChars_stripFilled (width : Nat) (line : List Char) :
    isBlankChars (stripFilled width line) = isBlankChars line := by
  rw [stripFilled]
  split
  · rename_i blank
    exact blank.symm
  · exact isBlankChars_stripIndent width line

/-- Once the common indentation is gone, there is none. -/
theorem commonIndent_map_stripFilled (lines : List (List Char)) :
    commonIndent (lines.map (stripFilled (commonIndent lines))) = 0 := by
  have filled : (lines.map (stripFilled (commonIndent lines))).filter (! isBlankChars ·) =
      (lines.filter (! isBlankChars ·)).map (stripIndent (commonIndent lines)) := by
    rw [List.filter_map]
    have same : (fun line => ! isBlankChars line) ∘ stripFilled (commonIndent lines) =
        fun line => ! isBlankChars line := by
      funext line
      rw [Function.comp_apply, isBlankChars_stripFilled]
    rw [same]
    refine List.map_congr_left fun line member => ?_
    rw [stripFilled, if_neg (by simpa using (List.mem_filter.mp member).2)]
  rw [commonIndent, filled, List.map_map]
  cases least : ((lines.filter (! isBlankChars ·)).map indentWidth).min? with
  | none =>
      rw [List.min?_eq_none_iff, List.map_eq_nil_iff] at least
      rw [least]
      rfl
  | some width =>
      -- the line that has the least indentation is left with none
      have common : commonIndent lines = width := by
        rw [commonIndent, least]
        rfl
      obtain ⟨line, member, rfl⟩ := List.mem_map.mp (List.min?_mem least)
      have none : ((lines.filter (! isBlankChars ·)).map
          (indentWidth ∘ stripIndent (commonIndent lines))).min? = some 0 := by
        refine List.min?_eq_some_iff.mpr ⟨List.mem_map.mpr ⟨line, member, ?_⟩, ?_⟩
        · rw [Function.comp_apply, indentWidth_stripIndent, common, Nat.sub_self]
        · exact fun _ _ => Nat.zero_le _
      rw [none]
      rfl

/-- Tidy lines that have no common indentation. -/
structure AreNormal (lines : List (List Char)) : Prop extends AreTidy lines where
  moved : commonIndent lines = 0

theorem AreTidy.map_stripFilled (areTidy : AreTidy lines) (width : Nat) :
    AreTidy (lines.map (stripFilled width)) where
  single := by
    refine List.forall_mem_map.mpr fun line member newline => areTidy.single line member ?_
    rw [stripFilled] at newline
    split at newline
    · exact absurd newline List.not_mem_nil
    · exact (stripIndent_suffix width line).subset newline
  squeezed := by
    refine squeezeLines_map (fun line trimmed => ⟨?_, ?_⟩) areTidy.squeezed
    · have kept := trimEnd_stripFilled width line
      rwa [trimmed] at kept
    · rw [Bool.eq_iff_iff, List.isEmpty_iff, List.isEmpty_iff]
      constructor
      · intro empty
        refine eq_nil_of_blank trimmed ?_
        rw [← isBlankChars_stripFilled width, empty]
        rfl
      · rintro rfl
        rfl
  filled := by
    intro last isLast empty
    rw [List.getLast?_map] at isLast
    obtain ⟨line, own, rfl⟩ := Option.map_eq_some_iff.mp isLast
    have trimmed := areTidy.trimmed (List.mem_of_getLast? own)
    refine areTidy.filled line own (eq_nil_of_blank trimmed ?_)
    rw [← isBlankChars_stripFilled width, empty]
    rfl

namespace AreNormal

theorem dedentChars_eq (areNormal : AreNormal lines) :
    dedentChars (joinLines lines) = joinLines lines := by
  rw [areNormal.toAreTidy.dedentChars_eq, areNormal.moved]
  refine congrArg joinLines (map_eq_self_iff.mpr fun line member => ?_)
  rw [stripFilled]
  split
  · rename_i blank
    exact (eq_nil_of_blank (areNormal.trimmed member) blank).symm
  · rfl

/-- The text of normal lines is in normal form. -/
theorem normal_eq (areNormal : AreNormal lines) :
    dedentChars (tidyChars (joinLines lines)) = joinLines lines := by
  rw [areNormal.tidyChars_eq, areNormal.dedentChars_eq]

end AreNormal

/-- What is tidied and moved out is the text of normal lines. -/
theorem exists_areNormal (chars : List Char) :
    ∃ lines, AreNormal lines ∧ dedentChars (tidyChars chars) = joinLines lines := by
  obtain ⟨lines, areTidy, same⟩ := exists_areTidy chars
  exact ⟨_, ⟨areTidy.map_stripFilled _, commonIndent_map_stripFilled lines⟩,
    by rw [same, areTidy.dedentChars_eq]⟩

theorem exists_areNormal_blockInner (chars : List Char) :
    ∃ lines, AreNormal lines ∧ blockInnerChars chars = joinLines lines :=
  exists_areNormal _

theorem tidyChars_idem (chars : List Char) : tidyChars (tidyChars chars) = tidyChars chars := by
  obtain ⟨lines, areTidy, same⟩ := exists_areTidy chars
  rw [same, areTidy.tidyChars_eq]

end Normal

end Text
end Hookify
