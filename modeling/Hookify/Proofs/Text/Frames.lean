import Hookify.Proofs.Text.Solid

namespace Hookify
namespace Text

/-!
# A part of a text between its ends

Normal forms change blanks only, at the ends of lines and in the margins, and
take the braces from a block or the semicolon from a statement.  So a part of a
text that begins and ends with another character is found again in what becomes
of the text.  What has become of it depends on nothing else than how far the
lines of the whole text are moved: its first line goes on to begin where it did,
and its other lines are treated like any lines.
-/

/-! ## Ends that stay -/

/-- No normal form takes the character away. -/
def IsFirm (c : Char) : Prop :=
  isBlank c = false ∧ c ≠ '\x7b' ∧ c ≠ '\x7d' ∧ c ≠ ';'

instance (c : Char) : Decidable (IsFirm c) :=
  inferInstanceAs (Decidable (_ ∧ _))

def Starts (chars : List Char) : Prop :=
  ∃ c rest, chars = c :: rest ∧ IsFirm c

def Ends (chars : List Char) : Prop :=
  ∃ rest c, chars = rest ++ [c] ∧ IsFirm c

/-- A text whose first and last characters no normal form takes away. -/
structure IsFramed (chars : List Char) : Prop where
  starts : Starts chars
  ends : Ends chars

section Ends

variable {chars line : List Char}

theorem Starts.append (starts : Starts chars) (behind : List Char) : Starts (chars ++ behind) := by
  obtain ⟨c, rest, rfl, firm⟩ := starts
  exact ⟨c, rest ++ behind, rfl, firm⟩

theorem Ends.append (ends : Ends chars) (before : List Char) : Ends (before ++ chars) := by
  obtain ⟨rest, c, rfl, firm⟩ := ends
  exact ⟨before ++ rest, c, (List.append_assoc ..).symm, firm⟩

theorem ends_singleton {c : Char} (firm : IsFirm c) : Ends [c] :=
  ⟨[], c, rfl, firm⟩

theorem Starts.isBlankChars_eq (starts : Starts chars) : isBlankChars chars = false := by
  obtain ⟨c, rest, rfl, firm⟩ := starts
  rw [isBlankChars, List.all_cons, firm.1, Bool.false_and]

theorem Ends.isBlankChars_eq (ends : Ends chars) : isBlankChars chars = false := by
  obtain ⟨rest, c, rfl, firm⟩ := ends
  rw [isBlankChars, List.all_append, List.all_cons, firm.1, Bool.false_and, Bool.and_false]

theorem Ends.ne_nil (ends : Ends chars) : chars ≠ [] := by
  obtain ⟨rest, c, rfl, _⟩ := ends
  simp

theorem Ends.of_cons {c : Char} (ends : Ends (c :: line)) (blank : isBlank c = true) :
    Ends line := by
  obtain ⟨rest, last, same, firm⟩ := ends
  cases rest with
  | nil =>
      rw [List.nil_append, List.cons.injEq] at same
      rw [same.1, firm.1] at blank
      cases blank
  | cons first others => exact ⟨others, last, (List.cons.inj same).2, firm⟩

theorem Ends.of_append {before behind : List Char} (ends : Ends (before ++ behind))
    (some : behind ≠ []) : Ends behind := by
  obtain ⟨rest, c, same, firm⟩ := ends
  rcases List.eq_nil_or_concat behind with none | ⟨front, last, rfl⟩
  · exact absurd none some
  · rw [List.concat_eq_append, ← List.append_assoc] at same
    have lasts := List.singleton_inj.mp (List.append_inj' same rfl).2
    exact ⟨front, last, List.concat_eq_append, lasts ▸ firm⟩

theorem Ends.dropWhile_append (ends : Ends line) (behind : List Char) :
    (line ++ behind).reverse.dropWhile isBlank =
      behind.reverse.dropWhile isBlank ++ line.reverse := by
  obtain ⟨rest, c, rfl, firm⟩ := ends
  rw [List.reverse_append, List.dropWhile_append]
  split
  · rename_i empty
    rw [List.isEmpty_iff.mp empty, List.reverse_append, List.reverse_singleton,
      List.singleton_append, List.dropWhile_cons_of_neg (by rw [firm.1]; exact Bool.false_ne_true)]
    rfl
  · rfl

theorem Ends.trimEnd_append (ends : Ends line) (behind : List Char) :
    trimEndChars (line ++ behind) = line ++ trimEndChars behind := by
  rw [trimEndChars, ends.dropWhile_append, List.reverse_append, List.reverse_reverse, trimEndChars]

theorem Ends.trimEnd_eq (ends : Ends line) : trimEndChars line = line := by
  have own := ends.trimEnd_append []
  rw [List.append_nil] at own
  exact own.trans (List.append_nil line)

theorem Starts.trimEnd_append (starts : Starts line) (before : List Char) :
    trimEndChars (before ++ line) = before ++ trimEndChars line := by
  obtain ⟨c, rest, rfl, firm⟩ := starts
  have single := ends_singleton firm
  rw [← List.singleton_append, ← List.append_assoc, (single.append before).trimEnd_append,
    single.trimEnd_append, List.append_assoc]

theorem Starts.trimEnd (starts : Starts line) : Starts (trimEndChars line) := by
  obtain ⟨c, rest, rfl, firm⟩ := starts
  rw [← List.singleton_append, (ends_singleton firm).trimEnd_append]
  exact ⟨c, _, rfl, firm⟩

theorem Starts.ne_nil (starts : Starts chars) : chars ≠ [] := by
  obtain ⟨c, rest, rfl, _⟩ := starts
  exact List.cons_ne_nil c rest

theorem dropReturn_of_ne {c : Char} (other : c ≠ '\r') (rest : List Char) :
    dropReturn (c :: rest) = c :: rest := by
  rw [dropReturn.eq_def]
  split
  · rename_i same
    exact absurd (List.cons.inj same).1 other
  · rfl

/-- A carriage return is only dropped behind what stays. -/
theorem Ends.dropReturn_append (ends : Ends line) (behind : List Char) :
    (dropReturn (line ++ behind).reverse).reverse =
      line ++ (dropReturn behind.reverse).reverse := by
  rw [List.reverse_append]
  cases turned : behind.reverse with
  | nil =>
      obtain ⟨rest, c, rfl, firm⟩ := ends
      have kept : c ≠ '\r' := by
        rintro rfl
        exact absurd firm.1 (by decide)
      rw [List.nil_append, List.reverse_append, List.reverse_singleton, List.singleton_append,
        dropReturn_of_ne kept]
      simp [dropReturn]
  | cons c rest =>
      rw [List.cons_append]
      by_cases isReturn : c = '\r'
      · rw [isReturn, dropReturn, dropReturn, List.reverse_append, List.reverse_reverse]
      · rw [dropReturn_of_ne isReturn, dropReturn_of_ne isReturn, List.reverse_cons,
          List.reverse_append, List.reverse_reverse, List.reverse_cons, List.append_assoc]

end Ends

/-! ## Lines around a part -/

/-- All lines but the first are changed. -/
def changeBehind (change : List Char → List Char) : List (List Char) → List (List Char)
  | [] => []
  | first :: others => first :: others.map change

/-- The lines of a part of a text among the lines of the whole. -/
inductive Frame : List (List Char) → List (List Char) → Prop where
  | one {above below : List (List Char)} {start line stop : List Char} (starts : Starts line)
      (ends : Ends line) : Frame (above ++ (start ++ line ++ stop) :: below) [line]
  | more {above between below : List (List Char)} {start first last stop : List Char}
      (starts : Starts first) (ends : Ends last) :
      Frame (above ++ (start ++ first) :: (between ++ (last ++ stop) :: below))
        (first :: (between ++ [last]))

/-- What stands in front of the first line, or behind the last. -/
theorem joinLines_front (start line : List Char) (rest : List (List Char)) :
    joinLines ((start ++ line) :: rest) = start ++ joinLines (line :: rest) := by
  cases rest with
  | nil => rfl
  | cons next others => rw [joinLines, joinLines, List.append_assoc]

theorem joinLines_append {first second : List (List Char)} (some : first ≠ [])
    (more : second ≠ []) :
    joinLines (first ++ second) = joinLines first ++ '\n' :: joinLines second := by
  induction first with
  | nil => exact absurd rfl some
  | cons line rest ih =>
      by_cases last : rest = []
      · rw [last, List.singleton_append, joinLines_cons line more]
        rfl
      · rw [List.cons_append, joinLines_cons line (by simp [last]), joinLines_cons line last,
          ih last, List.append_assoc, List.cons_append]

theorem joinLines_concat (lines : List (List Char)) (last stop : List Char) :
    joinLines (lines ++ [last ++ stop]) = joinLines (lines ++ [last]) ++ stop := by
  by_cases some : lines = []
  · rw [some]
    rfl
  · rw [joinLines_append some (List.cons_ne_nil _ _), joinLines_append some (List.cons_ne_nil _ _)]
    simp [joinLines]

/-- The text of lines stands in the text of these lines and others above and below. -/
theorem joinLines_infix (above below : List (List Char)) {lines : List (List Char)}
    (some : lines ≠ []) : joinLines lines <:+: joinLines (above ++ (lines ++ below)) := by
  have under : joinLines lines <:+: joinLines (lines ++ below) := by
    by_cases none : below = []
    · rw [none, List.append_nil]
    · rw [joinLines_append some none]
      exact (List.prefix_append _ _).isInfix
  by_cases none : above = []
  · rwa [none, List.nil_append]
  · rw [joinLines_append none (by simp [some])]
    exact under.trans ((List.suffix_cons '\n' _).trans (List.suffix_append _ _)).isInfix

namespace Frame

variable {whole inner : List (List Char)}

/-- The text of a part stands in the text of the whole. -/
theorem isInfix (frame : Frame whole inner) : joinLines inner <:+: joinLines whole := by
  cases frame with
  | @one above below start line stop starts ends =>
      have among := joinLines_infix above below (List.cons_ne_nil (start ++ line ++ stop) [])
      exact (List.infix_append start line stop).trans among
  | @more above between below start first last stop starts ends =>
      have among := joinLines_infix above below
        (List.cons_ne_nil (start ++ first) (between ++ [last ++ stop]))
      have behind := joinLines_concat (first :: between) last stop
      rw [List.cons_append, List.cons_append] at behind
      rw [joinLines_front, behind] at among
      have inside := List.infix_append start (joinLines (first :: (between ++ [last]))) stop
      rw [List.append_assoc] at inside
      simpa using inside.trans among

/-- The text of the part begins and ends as its lines do. -/
theorem isFramed (frame : Frame whole inner) : IsFramed (joinLines inner) := by
  cases frame with
  | one starts ends => exact ⟨starts, ends⟩
  | @more above between below start first last stop starts ends =>
      refine ⟨?_, ?_⟩
      · rw [joinLines_cons first (by simp)]
        exact starts.append _
      · rw [← List.cons_append, joinLines_append (List.cons_ne_nil _ _) (List.cons_ne_nil _ _)]
        exact (ends.append ['\n']).append _

theorem cons (line : List Char) (frame : Frame whole inner) : Frame (line :: whole) inner := by
  cases frame with
  | @one above below start inner stop starts ends => exact @one (line :: above) _ _ _ _ starts ends
  | @more above between below start first last stop starts ends =>
      exact @more (line :: above) _ _ _ _ _ _ starts ends

end Frame

/-! ## Reading lines -/

/-- What ends in a firm character ends in a line with what stands behind it. -/
theorem exists_lineChars_behind {chars : List Char} (ends : Ends chars) (after : List Char) :
    ∃ above last stop below, lineChars chars = above ++ [last] ∧
      lineChars (chars ++ after) = above ++ (last ++ stop) :: below ∧ Ends last := by
  induction size : chars.length using Nat.strongRecOn generalizing chars with
  | ind bound ih =>
      rcases firstLine_cases chars with single | ⟨line, rest, rfl, single⟩
      · have alone := lineChars_single single ends.ne_nil
        rcases firstLine_cases after with also | ⟨behind, below, rfl, also⟩
        · refine ⟨[], chars, after, [], alone, ?_, ends⟩
          exact lineChars_single (by simp [single, also]) (by simp [ends.ne_nil])
        · refine ⟨[], chars, (dropReturn behind.reverse).reverse, lineChars below, alone, ?_, ends⟩
          rw [← List.append_assoc, lineChars_append_newline (by simp [single, also]),
            ends.dropReturn_append]
          rfl
      · have later : Ends rest := by
          exact (ends.of_append (List.cons_ne_nil _ _)).of_cons (by decide)
        obtain ⟨above, last, stop, below, own, all, lastEnds⟩ := ih rest.length
          (by rw [← size, List.length_append, List.length_cons]; omega) later rfl
        refine ⟨(dropReturn line.reverse).reverse :: above, last, stop, below, ?_, ?_, lastEnds⟩
        · rw [lineChars_append_newline single, own, List.cons_append]
        · rw [List.append_assoc, List.cons_append, lineChars_append_newline single, all,
            List.cons_append]

/-- What begins with a firm character begins in a line behind what stands before it. -/
theorem exists_lineChars_before {chars : List Char} (starts : Starts chars) (before : List Char) :
    ∃ above start first rest, lineChars chars = first :: rest ∧
      lineChars (before ++ chars) = above ++ (start ++ first) :: rest ∧ Starts first := by
  induction size : before.length using Nat.strongRecOn generalizing before with
  | ind bound ih =>
      rcases firstLine_cases before with single | ⟨line, rest, rfl, single⟩
      · rcases firstLine_cases chars with also | ⟨line, rest, rfl, also⟩
        · refine ⟨[], before, chars, [], lineChars_single also starts.ne_nil, ?_, starts⟩
          exact lineChars_single (by simp [single, also]) (by simp [starts.ne_nil])
        · obtain ⟨c, others, same, firm⟩ := starts
          cases line with
          | nil =>
              rw [List.nil_append, List.cons.injEq] at same
              rw [← same.1] at firm
              exact absurd firm.1 (by decide)
          | cons first line =>
              rw [List.cons_append, List.cons.injEq] at same
              rw [← same.1] at firm
              have ends := ends_singleton firm
              have alone := ends.dropReturn_append line
              have behind := (ends.append before).dropReturn_append line
              rw [List.append_assoc, List.append_assoc] at behind
              refine ⟨[], before, first :: (dropReturn line.reverse).reverse, lineChars rest, ?_, ?_,
                ⟨first, _, rfl, firm⟩⟩
              · rw [lineChars_append_newline also]
                exact congrArg (· :: lineChars rest) alone
              · rw [← List.append_assoc, lineChars_append_newline (by simp_all)]
                exact congrArg (· :: lineChars rest) behind
      · obtain ⟨above, start, first, others, own, all, firstStarts⟩ := ih rest.length
          (by rw [← size, List.length_append, List.length_cons]; omega) rest rfl
        refine ⟨(dropReturn line.reverse).reverse :: above, start, first, others, own, ?_,
          firstStarts⟩
        rw [List.append_assoc, List.cons_append, lineChars_append_newline single, all,
          List.cons_append]

/-- The lines of a framed text are found among the lines of a text in which it stands. -/
theorem frame_lineChars {whole chars : List Char} (framed : IsFramed chars)
    (inside : chars <:+: whole) : Frame (lineChars whole) (lineChars chars) := by
  obtain ⟨before, after, rfl⟩ := inside
  obtain ⟨above, last, stop, below, own, behind, lastEnds⟩ :=
    exists_lineChars_behind framed.ends after
  obtain ⟨upper, start, first, rest, all, whole, firstStarts⟩ :=
    exists_lineChars_before (framed.starts.append after) before
  obtain ⟨_, _, line, others, alone, _, lineStarts⟩ := exists_lineChars_before framed.starts []
  rw [List.append_assoc, whole, own]
  rw [behind] at all
  rw [own] at alone
  cases above with
  | nil =>
      obtain ⟨rfl, rfl⟩ := List.cons.inj all
      have starts : Starts last := (List.cons.inj alone).1 ▸ lineStarts
      rw [← List.append_assoc]
      exact .one starts lastEnds
  | cons top between =>
      obtain ⟨rfl, rfl⟩ := List.cons.inj all
      have starts : Starts top := (List.cons.inj alone).1 ▸ lineStarts
      exact .more starts lastEnds

/-! ## Changes of lines -/

/-- A change of lines that takes away or adds blanks in front of them. -/
structure IsShift (change : List Char → List Char) : Prop where
  behind : ∀ start {line}, Starts line → ∃ moved, change (start ++ line) = moved ++ line
  before : ∀ {line}, Ends line → ∀ stop, change (line ++ stop) = change line ++ stop

theorem IsShift.ends {change : List Char → List Char} {line : List Char} (isShift : IsShift change)
    (ends : Ends line) : Ends (change line) := by
  obtain ⟨rest, c, rfl, firm⟩ := ends
  have starts : Starts [c] := ⟨c, [], rfl, firm⟩
  obtain ⟨moved, same⟩ := isShift.behind rest starts
  exact ⟨moved, c, same, firm⟩

theorem Ends.stripIndent_append {line : List Char} (ends : Ends line) (width : Nat)
    (stop : List Char) : stripIndent width (line ++ stop) = stripIndent width line ++ stop := by
  induction width generalizing line with
  | zero => rfl
  | succ width ih =>
      cases line with
      | nil => exact absurd rfl ends.ne_nil
      | cons c rest =>
          rw [List.cons_append, stripIndent, stripIndent]
          split
          · rename_i blank
            exact ih (ends.of_cons blank)
          · rfl

theorem Starts.exists_stripIndent {line : List Char} (starts : Starts line) (width : Nat)
    (start : List Char) : ∃ moved, stripIndent width (start ++ line) = moved ++ line := by
  induction width generalizing start with
  | zero => exact ⟨start, rfl⟩
  | succ width ih =>
      cases start with
      | nil =>
          obtain ⟨c, rest, rfl, firm⟩ := starts
          refine ⟨[], ?_⟩
          rw [List.nil_append, stripIndent, firm.1, if_neg Bool.false_ne_true]
      | cons c rest =>
          rw [List.cons_append, stripIndent]
          split
          · exact ih rest
          · exact ⟨c :: rest, rfl⟩

theorem isShift_stripIndent (width : Nat) : IsShift (stripIndent width) where
  behind := fun start _ starts => starts.exists_stripIndent width start
  before := fun ends stop => ends.stripIndent_append width stop

/-- The change of a line when text loses the indentation that its lines share. -/
def stripFilled (width : Nat) (line : List Char) : List Char :=
  if isBlankChars line then [] else stripIndent width line

theorem isShift_stripFilled (width : Nat) : IsShift (stripFilled width) where
  behind := fun start line starts => by
    have filled : isBlankChars (start ++ line) = false := by
      rw [isBlankChars, List.all_append, ← isBlankChars, ← isBlankChars, starts.isBlankChars_eq,
        Bool.and_false]
    rw [stripFilled, filled]
    exact starts.exists_stripIndent width start
  before := fun {line} ends stop => by
    have filled : isBlankChars (line ++ stop) = false := by
      rw [isBlankChars, List.all_append, ← isBlankChars, ← isBlankChars, ends.isBlankChars_eq,
        Bool.false_and]
    rw [stripFilled, stripFilled, filled, ends.isBlankChars_eq]
    exact ends.stripIndent_append width stop

/-- The change of a line when text is indented. -/
def indentFilled (margin line : List Char) : List Char :=
  if line.isEmpty then [] else margin ++ line

theorem isShift_indentFilled (margin : List Char) : IsShift (indentFilled margin) where
  behind := fun start line starts => by
    have filled : (start ++ line).isEmpty = false := by
      cases start with
      | nil => exact List.isEmpty_eq_false_iff.mpr starts.ne_nil
      | cons _ _ => rfl
    rw [indentFilled, filled, if_neg Bool.false_ne_true]
    exact ⟨margin ++ start, (List.append_assoc ..).symm⟩
  before := fun {line} ends stop => by
    have filled : line.isEmpty = false := List.isEmpty_eq_false_iff.mpr ends.ne_nil
    have alsoFilled : (line ++ stop).isEmpty = false :=
      List.isEmpty_eq_false_iff.mpr (List.append_ne_nil_of_left_ne_nil ends.ne_nil stop)
    rw [indentFilled, indentFilled, filled, alsoFilled, if_neg Bool.false_ne_true,
      if_neg Bool.false_ne_true, List.append_assoc]

namespace Frame

variable {whole inner : List (List Char)} {change : List Char → List Char}

/-- When all lines are shifted, the first line of a part goes on to begin where it did. -/
theorem map (frame : Frame whole inner) (isShift : IsShift change) :
    Frame (whole.map change) (changeBehind change inner) := by
  cases frame with
  | @one above below start line stop starts ends =>
      obtain ⟨moved, same⟩ := isShift.behind start starts
      rw [List.map_append, List.map_cons, isShift.before (ends.append start), same]
      exact one starts ends
  | @more above between below start first last stop starts ends =>
      obtain ⟨moved, same⟩ := isShift.behind start starts
      rw [List.map_append, List.map_cons, List.map_append, List.map_cons, isShift.before ends, same,
        changeBehind, List.map_append, List.map_singleton]
      exact more starts (isShift.ends ends)

/-- The same if the first line of the whole text stays as it is. -/
theorem changeBehind (frame : Frame whole inner) (isShift : IsShift change) :
    Frame (Text.changeBehind change whole) (Text.changeBehind change inner) := by
  cases frame with
  | @one above under start line stop starts ends =>
      cases above with
      | nil => exact @one [] _ start line stop starts ends
      | cons top above =>
          have rest : Frame (above ++ (start ++ line ++ stop) :: under) [line] := one starts ends
          exact (rest.map isShift).cons top
  | @more above between under start first last stop starts ends =>
      cases above with
      | nil =>
          have shape : (between ++ (last ++ stop) :: under).map change =
              between.map change ++ (change last ++ stop) :: under.map change := by
            rw [List.map_append, List.map_cons, isShift.before ends]
          rw [List.nil_append, Text.changeBehind, shape, Text.changeBehind, List.map_append,
            List.map_singleton]
          exact @more [] _ _ start first _ stop starts (isShift.ends ends)
      | cons top above =>
          have rest : Frame (above ++ (start ++ first) :: (between ++ (last ++ stop) :: under))
              (first :: (between ++ [last])) := more starts ends
          exact (rest.map isShift).cons top

end Frame

/-! ## Trimmed lines -/

/-- A line that is not blank stays between what becomes of the lines above and below. -/
theorem squeezeLines_append {line : List Char} (filled : trimEndChars line ≠ [])
    (above below : List (List Char)) (blankBefore : Bool) :
    squeezeLines blankBefore (above ++ line :: below) =
      squeezeLines blankBefore above ++ trimEndChars line :: squeezeLines false below := by
  induction above generalizing blankBefore with
  | nil =>
      rw [List.nil_append, squeezeLines, squeezeLines, if_neg (mt List.isEmpty_iff.mp filled),
        List.nil_append]
  | cons top above ih =>
      rw [List.cons_append, squeezeLines, squeezeLines]
      split
      · split
        · exact ih true
        · rw [ih true, List.cons_append]
      · rw [ih false, List.cons_append]

theorem dropTrailingEmpty_append {line : List Char} (filled : line ≠ [])
    (above below : List (List Char)) :
    dropTrailingEmpty (above ++ line :: below) = above ++ line :: dropTrailingEmpty below := by
  have kept : (line :: above.reverse).dropWhile List.isEmpty = line :: above.reverse :=
    List.dropWhile_cons_of_neg (mt List.isEmpty_iff.mp filled)
  rw [dropTrailingEmpty, dropTrailingEmpty, List.reverse_append, List.reverse_cons,
    List.append_assoc, List.singleton_append, List.dropWhile_append, kept]
  split
  · rename_i empty
    rw [List.isEmpty_iff.mp empty]
    simp
  · simp

namespace Frame

variable {whole inner : List (List Char)}

/-- The lines of a part are trimmed and squeezed by themselves. -/
theorem squeeze (frame : Frame whole inner) (blankBefore : Bool) :
    Frame (squeezeLines blankBefore whole) (squeezeLines true inner) := by
  cases frame with
  | @one above below start line stop starts ends =>
      have trimmed : trimEndChars (start ++ line ++ stop) = start ++ line ++ trimEndChars stop :=
        (ends.append start).trimEnd_append stop
      rw [squeezeLines_append (by rw [trimmed]; simp [ends.ne_nil]), trimmed, squeezeLines,
        squeezeLines, ends.trimEnd_eq, if_neg (mt List.isEmpty_iff.mp ends.ne_nil)]
      exact one starts ends
  | @more above between below start first last stop starts ends =>
      have top : trimEndChars (start ++ first) = start ++ trimEndChars first :=
        starts.trimEnd_append start
      have bottom : trimEndChars (last ++ stop) = last ++ trimEndChars stop :=
        ends.trimEnd_append stop
      have own := squeezeLines_append (by rw [ends.trimEnd_eq]; exact ends.ne_nil) between []
      rw [squeezeLines_append (by rw [top]; simp [starts.trimEnd.ne_nil]), top,
        squeezeLines_append (by rw [bottom]; simp [ends.ne_nil]), bottom, squeezeLines,
        if_neg (mt List.isEmpty_iff.mp starts.trimEnd.ne_nil), own, ends.trimEnd_eq]
      exact more starts.trimEnd ends

theorem dropTrailingEmpty (frame : Frame whole inner) :
    Frame (Text.dropTrailingEmpty whole) inner := by
  cases frame with
  | @one above below start line stop starts ends =>
      rw [dropTrailingEmpty_append (by simp [ends.ne_nil])]
      exact one starts ends
  | @more above between below start first last stop starts ends =>
      have shape : ∀ below, above ++ (start ++ first) :: (between ++ (last ++ stop) :: below) =
          (above ++ (start ++ first) :: between) ++ (last ++ stop) :: below := by
        simp
      rw [shape, dropTrailingEmpty_append (by simp [ends.ne_nil]), ← shape]
      exact more starts ends

/-- The last line of a part is not empty. -/
theorem dropTrailingEmpty_eq (frame : Frame whole inner) :
    Text.dropTrailingEmpty inner = inner := by
  cases frame with
  | one starts ends => exact dropTrailingEmpty_append ends.ne_nil [] []
  | @more above between below start first last stop starts ends =>
      exact dropTrailingEmpty_append ends.ne_nil (first :: between) []

end Frame

/-! ## What becomes of a part -/

/-- Remove up to `width` blanks from every line but the first; blank lines become empty. -/
def dedentBehindChars (width : Nat) (chars : List Char) : List Char :=
  joinLines (changeBehind (stripFilled width) (lineChars chars))

/-- A block without its braces, tidied: what is left is its lines with their indentation. -/
def unbracedChars (chars : List Char) : List Char :=
  tidyChars ((enclosed? '\x7b' '\x7d' (trimChars chars)).getD (trimChars chars))

/-- The indentation that a block loses. -/
def blockIndent (chars : List Char) : Nat :=
  commonIndent (lineChars (unbracedChars chars))

theorem dedentContinuationChars_eq (column : Nat) (chars : List Char) :
    dedentContinuationChars column chars =
      joinLines (changeBehind (stripIndent column) (lineChars chars)) := by
  rw [dedentContinuationChars]
  cases lineChars chars <;> rfl

theorem indentContinuationChars_eq (margin chars : List Char) :
    indentContinuationChars margin chars =
      joinLines (changeBehind (indentFilled margin) (lineChars chars)) := by
  rw [indentContinuationChars]
  cases lineChars chars <;> rfl

namespace IsFramed

variable {whole inner : List Char}

theorem dedentContinuation (framed : IsFramed inner) (column : Nat) :
    IsFramed (dedentContinuationChars column inner) := by
  rw [dedentContinuationChars_eq]
  exact ((frame_lineChars framed List.infix_rfl).changeBehind (isShift_stripIndent column)).isFramed

theorem dedentBehind (framed : IsFramed inner) (width : Nat) :
    IsFramed (dedentBehindChars width inner) :=
  ((frame_lineChars framed List.infix_rfl).changeBehind (isShift_stripFilled width)).isFramed

theorem indentContinuation (framed : IsFramed inner) (margin : List Char) :
    IsFramed (indentContinuationChars margin inner) := by
  rw [indentContinuationChars_eq]
  exact ((frame_lineChars framed List.infix_rfl).changeBehind (isShift_indentFilled margin)).isFramed

/-- The lines of a framed text are tidied by themselves. -/
theorem tidy_eq (framed : IsFramed inner) :
    tidyChars inner = joinLines (squeezeLines true (lineChars inner)) := by
  rw [tidyChars, ((frame_lineChars framed List.infix_rfl).squeeze true).dropTrailingEmpty_eq]

theorem tidy (framed : IsFramed inner) : IsFramed (tidyChars inner) := by
  rw [framed.tidy_eq]
  exact ((frame_lineChars framed List.infix_rfl).squeeze true).isFramed

theorem infix_dedentContinuation (framed : IsFramed inner) (inside : inner <:+: whole)
    (column : Nat) :
    dedentContinuationChars column inner <:+: dedentContinuationChars column whole := by
  rw [dedentContinuationChars_eq, dedentContinuationChars_eq]
  exact ((frame_lineChars framed inside).changeBehind (isShift_stripIndent column)).isInfix

theorem infix_indentContinuation (framed : IsFramed inner) (inside : inner <:+: whole)
    (margin : List Char) :
    indentContinuationChars margin inner <:+: indentContinuationChars margin whole := by
  rw [indentContinuationChars_eq, indentContinuationChars_eq]
  exact ((frame_lineChars framed inside).changeBehind (isShift_indentFilled margin)).isInfix

theorem infix_indent (framed : IsFramed inner) (inside : inner <:+: whole) (margin : List Char) :
    indentContinuationChars margin inner <:+: indentChars margin whole := by
  rw [indentContinuationChars_eq]
  exact ((frame_lineChars framed inside).map (isShift_indentFilled margin)).isInfix

theorem infix_dedent (framed : IsFramed inner) (inside : inner <:+: whole) :
    dedentBehindChars (commonIndent (lineChars whole)) inner <:+: dedentChars whole :=
  ((frame_lineChars framed inside).map (isShift_stripFilled _)).isInfix

theorem infix_tidy (framed : IsFramed inner) (inside : inner <:+: whole) :
    tidyChars inner <:+: tidyChars whole := by
  rw [framed.tidy_eq]
  exact ((frame_lineChars framed inside).squeeze true).dropTrailingEmpty.isInfix

theorem infix_trimEnd (framed : IsFramed inner) (inside : inner <:+: whole) :
    inner <:+: trimEndChars whole := by
  obtain ⟨before, after, rfl⟩ := inside
  rw [(framed.ends.append _).trimEnd_append]
  exact List.infix_append _ _ _

theorem infix_trim (framed : IsFramed inner) (inside : inner <:+: whole) :
    inner <:+: trimChars whole := by
  obtain ⟨before, after, rfl⟩ := inside
  have start : trimStartChars (before ++ (inner ++ after)) =
      trimStartChars before ++ (inner ++ after) := by
    obtain ⟨c, rest, rfl, firm⟩ := framed.starts
    have kept : (c :: rest ++ after).dropWhile isBlank = c :: rest ++ after :=
      List.dropWhile_cons_of_neg (by rw [firm.1]; exact Bool.false_ne_true)
    rw [trimStartChars, trimStartChars, List.dropWhile_append, kept]
    split
    · rename_i empty
      rw [List.isEmpty_iff.mp empty, List.nil_append]
    · rfl
  rw [trimChars, List.append_assoc, start, ← List.append_assoc]
  exact framed.infix_trimEnd (List.infix_append _ _ _)

/-- Braces around a text are no part of what is framed. -/
theorem infix_unbraced (framed : IsFramed inner) (inside : inner <:+: whole) :
    inner <:+: (enclosed? '\x7b' '\x7d' whole).getD whole := by
  cases found : enclosed? '\x7b' '\x7d' whole with
  | none => exact inside
  | some within =>
      obtain ⟨before, after, rfl⟩ := inside
      have braces := enclosed?_eq_some_iff.mp found
      rw [List.append_assoc] at braces
      cases before with
      | nil =>
          obtain ⟨c, rest, rfl, firm⟩ := framed.starts
          exact absurd (List.cons.inj braces).1 firm.2.1
      | cons c before =>
          rw [List.cons_append] at braces
          have behind := (List.cons.inj braces).2
          rcases List.eq_nil_or_concat after with rfl | ⟨after, last, rfl⟩
          · obtain ⟨rest, d, rfl, firm⟩ := framed.ends
            rw [List.append_nil, ← List.append_assoc] at behind
            exact absurd (List.singleton_inj.mp (List.append_inj' behind rfl).2) firm.2.2.1
          · rw [List.concat_eq_append, ← List.append_assoc, ← List.append_assoc] at behind
            exact ⟨before, after, (List.append_inj' behind rfl).1⟩

/-- A part of a block is tidied, and its other lines lose the indentation that the block loses. -/
theorem infix_blockInner (framed : IsFramed inner) (inside : inner <:+: whole) :
    dedentBehindChars (blockIndent whole) (tidyChars inner) <:+: blockInnerChars whole :=
  framed.tidy.infix_dedent (framed.infix_tidy (framed.infix_unbraced (framed.infix_trim inside)))

end IsFramed

/-! ## Parts within a line -/

/-- A framed text without a line feed. -/
structure IsInline (chars : List Char) : Prop extends IsFramed chars where
  single : '\n' ∉ chars

namespace IsInline

variable {inner : List Char}

theorem lineChars_eq (isInline : IsInline inner) : lineChars inner = [inner] :=
  lineChars_single isInline.single isInline.starts.ne_nil

theorem dedentContinuation_eq (isInline : IsInline inner) (column : Nat) :
    dedentContinuationChars column inner = inner := by
  rw [dedentContinuationChars_eq, isInline.lineChars_eq]
  rfl

theorem dedentBehind_eq (isInline : IsInline inner) (width : Nat) :
    dedentBehindChars width inner = inner := by
  rw [dedentBehindChars, isInline.lineChars_eq]
  rfl

theorem indentContinuation_eq (isInline : IsInline inner) (margin : List Char) :
    indentContinuationChars margin inner = inner := by
  rw [indentContinuationChars_eq, isInline.lineChars_eq]
  rfl

theorem tidy_eq (isInline : IsInline inner) : tidyChars inner = inner := by
  rw [isInline.toIsFramed.tidy_eq, isInline.lineChars_eq, squeezeLines, squeezeLines,
    isInline.ends.trimEnd_eq, if_neg (mt List.isEmpty_iff.mp isInline.starts.ne_nil)]
  rfl

/-- What begins with a part within a line goes on to begin with it when the other lines are
indented. -/
theorem exists_indentContinuation_eq (isInline : IsInline inner) (margin rest : List Char) :
    ∃ after, indentContinuationChars margin (inner ++ rest) = inner ++ after := by
  obtain ⟨above, last, stop, below, own, whole, -⟩ := exists_lineChars_behind isInline.ends rest
  rw [isInline.lineChars_eq] at own
  have parts : [] ++ [inner] = above ++ [last] := own
  obtain ⟨rfl, same⟩ := List.append_inj' parts rfl
  rw [indentContinuationChars_eq, whole, ← List.singleton_inj.mp same, List.nil_append,
    changeBehind, joinLines_front]
  exact ⟨_, rfl⟩

end IsInline

end Text
end Hookify
