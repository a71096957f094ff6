import Hookify.Proofs.Text.Requoting
import Hookify.Proofs.Text.Unmoved

namespace Hookify
namespace Text

open Script

/-!
# Strings of several lines

A string goes on with the next line behind a backslash.  When its lines are
moved out, the blanks that they begin with are lost, and they are part of the
value.  The line ends are not part of it, whichever they are.  So a string
keeps its value exactly if none of its other lines is moved.

Moving lines out is described by what becomes of each character, on which the
proofs go along with the reading of the string.
-/

/-! ## Moving characters out -/

/-- Move lines out, where up to `left` blanks of the line that is under way may still go. -/
def shiftFrom (column : Nat) : Nat → List Char → List Char
  | _, [] => []
  | left, c :: rest =>
      if c == '\n' then '\n' :: shiftFrom column column rest
      else if c == '\r' && rest.head? == some '\n' then shiftFrom column left rest
      else if left != 0 && isBlank c then shiftFrom column (left - 1) rest
      else c :: shiftFrom column 0 rest

section Shift

variable {column left : Nat} {c : Char} {chars line rest : List Char}

theorem shiftFrom_newline :
    shiftFrom column left ('\n' :: rest) = '\n' :: shiftFrom column column rest :=
  rfl

/-- A blank at the start of a line goes. -/
theorem shiftFrom_blank (inLine : c ≠ '\n') (noEnd : c = '\r' → rest.head? ≠ some '\n')
    (blank : isBlank c = true) :
    shiftFrom column (left + 1) (c :: rest) = shiftFrom column left rest := by
  have noReturn : ¬ (c == '\r' && rest.head? == some '\n') = true := by
    simpa using noEnd
  rw [shiftFrom, if_neg (mt beq_iff_eq.mp inLine), if_neg noReturn, if_pos (by simp [blank]),
    Nat.add_sub_cancel]

/-- Every other character stays. -/
theorem shiftFrom_stays (inLine : c ≠ '\n') (noEnd : c = '\r' → rest.head? ≠ some '\n')
    (firm : left = 0 ∨ isBlank c = false) :
    shiftFrom column left (c :: rest) = c :: shiftFrom column 0 rest := by
  have noReturn : ¬ (c == '\r' && rest.head? == some '\n') = true := by
    simpa using noEnd
  have stays : ¬ (left != 0 && isBlank c) = true := by
    rcases firm with rfl | firm
    · exact Bool.false_ne_true
    · simp [firm]
  rw [shiftFrom, if_neg (mt beq_iff_eq.mp inLine), if_neg noReturn, if_neg stays]

theorem shiftFrom_line (single : '\n' ∉ line) :
    shiftFrom column left line = stripIndent left line := by
  induction line generalizing left with
  | nil => cases left <;> rfl
  | cons c rest ih =>
      have inLine : c ≠ '\n' := fun same => single (same ▸ List.mem_cons_self)
      have later : '\n' ∉ rest := fun member => single (List.mem_cons_of_mem c member)
      have noEnd : c = '\r' → rest.head? ≠ some '\n' :=
        fun _ head => later (List.mem_of_mem_head? head)
      cases left with
      | zero => rw [shiftFrom_stays inLine noEnd (.inl rfl), ih later, stripIndent, stripIndent]
      | succ left =>
          rw [stripIndent]
          split
          · rename_i blank
            rw [shiftFrom_blank inLine noEnd blank, ih later]
          · rename_i firm
            rw [shiftFrom_stays inLine noEnd (.inr (Bool.eq_false_iff.mpr firm)), ih later,
              stripIndent]

theorem dropReturn_cons_reverse (c : Char) (some : line ≠ []) :
    (dropReturn (c :: line).reverse).reverse = c :: (dropReturn line.reverse).reverse := by
  rw [List.reverse_cons]
  cases turned : line.reverse with
  | nil => exact absurd (List.reverse_eq_nil_iff.mp turned) some
  | cons last others =>
      by_cases isReturn : last = '\r'
      · rw [isReturn, List.cons_append, dropReturn, dropReturn, List.reverse_append]
        rfl
      · rw [List.cons_append, dropReturn_of_ne isReturn, dropReturn_of_ne isReturn]
        simp

/-- A line goes without its end, and the next one is moved as any other. -/
theorem shiftFrom_append_newline (single : '\n' ∉ line) (rest : List Char) :
    shiftFrom column left (line ++ '\n' :: rest) =
      stripIndent left (dropReturn line.reverse).reverse ++ '\n' :: shiftFrom column column rest := by
  induction line generalizing left with
  | nil => cases left <;> rfl
  | cons c others ih =>
      have inLine : c ≠ '\n' := fun same => single (same ▸ List.mem_cons_self)
      have later : '\n' ∉ others := fun member => single (List.mem_cons_of_mem c member)
      rw [List.cons_append]
      by_cases ends : c = '\r' ∧ others = []
      · obtain ⟨rfl, rfl⟩ := ends
        rw [shiftFrom, if_neg (by decide), List.nil_append, if_pos (by rfl), shiftFrom_newline]
        cases left <;> rfl
      · have noEnd : c = '\r' → (others ++ '\n' :: rest).head? ≠ some '\n' := by
          intro isReturn head
          cases others with
          | nil => exact ends ⟨isReturn, rfl⟩
          | cons next _ => exact later (List.mem_of_mem_head? head)
        have same : (dropReturn (c :: others).reverse).reverse =
            c :: (dropReturn others.reverse).reverse := by
          by_cases none : others = []
          · rw [none]
            have other : c ≠ '\r' := fun isReturn => ends ⟨isReturn, none⟩
            exact congrArg List.reverse (dropReturn_of_ne other [])
          · exact dropReturn_cons_reverse c none
        rw [same]
        cases left with
        | zero => rw [shiftFrom_stays inLine noEnd (.inl rfl), ih later]; rfl
        | succ left =>
            rw [stripIndent]
            split
            · rename_i blank
              rw [shiftFrom_blank inLine noEnd blank, ih later]
            · rename_i firm
              rw [shiftFrom_stays inLine noEnd (.inr (Bool.eq_false_iff.mpr firm)), ih later]
              rfl

theorem Ends.lineChars_ne_nil (ends : Ends chars) : lineChars chars ≠ [] := by
  obtain ⟨above, last, _, _, areLines, _⟩ := exists_lineChars_behind ends []
  rw [areLines]
  exact List.append_ne_nil_of_right_ne_nil above (List.cons_ne_nil last [])

/-- Lines that are moved out, character by character. -/
theorem joinLines_eq_shiftFrom (ends : Ends chars) {first : List Char} {others : List (List Char)}
    (areLines : lineChars chars = first :: others) :
    joinLines (stripIndent left first :: others.map (stripIndent column)) =
      shiftFrom column left chars := by
  induction size : chars.length using Nat.strongRecOn generalizing chars left first others with
  | ind bound ih =>
      rcases firstLine_cases chars with single | ⟨line, rest, rfl, single⟩
      · rw [lineChars_single single ends.ne_nil] at areLines
        obtain ⟨rfl, rfl⟩ := List.cons.inj areLines
        exact (shiftFrom_line single).symm
      · have later : Ends rest := (ends.of_append (List.cons_ne_nil _ _)).of_cons (by decide)
        rw [lineChars_append_newline single] at areLines
        obtain ⟨rfl, rfl⟩ := List.cons.inj areLines
        rw [shiftFrom_append_newline single]
        cases behind : lineChars rest with
        | nil => exact absurd behind later.lineChars_ne_nil
        | cons next lines =>
            rw [joinLines_cons _ (by simp), List.map_cons, ih rest.length
              (by rw [← size, List.length_append, List.length_cons]; omega) later behind rfl]

theorem dedentContinuationChars_eq_shiftFrom (ends : Ends chars) (column : Nat) :
    dedentContinuationChars column chars = shiftFrom column 0 chars := by
  rw [dedentContinuationChars]
  cases areLines : lineChars chars with
  | nil => exact absurd areLines ends.lineChars_ne_nil
  | cons first others =>
      have moved := @joinLines_eq_shiftFrom column 0 chars ends first others areLines
      rwa [stripIndent] at moved

theorem shiftFrom_append {taken : List Char} (inLine : ∀ c ∈ taken, c ≠ '\n' ∧ c ≠ '\r')
    (rest : List Char) : shiftFrom column 0 (taken ++ rest) = taken ++ shiftFrom column 0 rest := by
  induction taken with
  | nil => rfl
  | cons c others ih =>
      obtain ⟨⟨inLine, noReturn⟩, later⟩ := List.forall_mem_cons.mp inLine
      rw [List.cons_append, shiftFrom_stays inLine (fun same => absurd same noReturn) (.inl rfl),
        ih later, List.cons_append]

theorem shiftFrom_concat (firm : isBlank c = false) (chars : List Char) :
    shiftFrom column left (chars ++ [c]) = shiftFrom column left chars ++ [c] := by
  have noNewline : c ≠ '\n' := by rintro rfl; exact absurd firm (by decide)
  have noReturn : c ≠ '\r' := by rintro rfl; exact absurd firm (by decide)
  induction chars generalizing left with
  | nil => exact shiftFrom_stays noNewline (fun same => absurd same noReturn) (.inr firm)
  | cons d rest ih =>
      have same : (rest ++ [c]).head? = some '\n' ↔ rest.head? = some '\n' := by
        cases rest with
        | nil => simpa using noNewline
        | cons next _ => rfl
      rw [List.cons_append, shiftFrom, shiftFrom]
      simp only [ih, beq_iff_eq, same, Bool.and_eq_true]
      split
      · rfl
      · split
        · rfl
        · split <;> rfl

/-- The further lines are moved, the less is left. -/
theorem shiftFrom_sublist (column left : Nat) (chars : List Char) :
    (shiftFrom column left chars).Sublist (shiftFrom 0 0 chars) := by
  induction chars generalizing left with
  | nil => exact List.Sublist.refl _
  | cons c rest ih =>
      rw [shiftFrom, shiftFrom]
      split
      · exact (ih column).cons_cons _
      · split
        · exact ih left
        · rw [if_neg (show ¬ (0 != 0 && isBlank c) = true from Bool.false_ne_true)]
          split
          · exact (ih _).cons _
          · exact (ih 0).cons_cons _

end Shift

/-! ## Lines that begin with blanks -/

section Lines

variable {change : List Char → List Char}

theorem length_joinLines_map_le (shorter : ∀ line, (change line).length ≤ line.length)
    (lines : List (List Char)) :
    (joinLines (lines.map change)).length ≤ (joinLines lines).length := by
  induction lines with
  | nil => exact Nat.le_refl 0
  | cons line rest ih =>
      by_cases none : rest = []
      · rw [none]
        exact shorter line
      · rw [List.map_cons, joinLines_cons _ (by simpa using none), joinLines_cons _ none,
          List.length_append, List.length_append, List.length_cons, List.length_cons]
        exact Nat.add_le_add (shorter line) (Nat.succ_le_succ ih)

/-- Lines of which some may get shorter keep their text exactly if all are kept. -/
theorem joinLines_map_eq_iff (shorter : ∀ line, (change line).length ≤ line.length)
    {lines : List (List Char)} :
    joinLines (lines.map change) = joinLines lines ↔ ∀ line ∈ lines, change line = line := by
  rw [← map_eq_self_iff]
  refine ⟨fun same => ?_, fun same => by rw [same]⟩
  induction lines with
  | nil => rfl
  | cons line rest ih =>
      by_cases none : rest = []
      · rw [none] at same ⊢
        exact congrArg (fun line => [line]) same
      · rw [List.map_cons, joinLines_cons _ (by simpa using none), joinLines_cons _ none] at same
        have total := congrArg List.length same
        rw [List.length_append, List.length_append, List.length_cons, List.length_cons] at total
        have less := shorter line
        have under := length_joinLines_map_le shorter rest
        obtain ⟨kept, later⟩ := List.append_inj same (by omega)
        rw [List.map_cons, kept, ih (List.cons.inj later).2]

/-- Moving lines out makes no difference exactly if the other lines begin with no blanks. -/
theorem dedentContinuationChars_eq_zero_iff (column : Nat) (chars : List Char) :
    dedentContinuationChars column chars = dedentContinuationChars 0 chars ↔
      ∀ line ∈ (lineChars chars).tail, column = 0 ∨ indentWidth line = 0 := by
  rw [dedentContinuationChars, dedentContinuationChars]
  cases lineChars chars with
  | nil => exact iff_of_true rfl fun _ absent => absurd absent List.not_mem_nil
  | cons first others =>
      have shorter : ∀ line, (stripIndent column line).length ≤ line.length :=
        fun line => (stripIndent_suffix column line).length_le
      have none : others.map (stripIndent 0) = others := map_eq_self_iff.mpr fun _ _ => rfl
      simp only [List.tail_cons, none, ← stripIndent_eq_self_iff, ← joinLines_map_eq_iff shorter]
      by_cases alone : others = []
      · rw [alone]
        exact iff_of_true rfl rfl
      · rw [joinLines_cons _ (by simpa using alone), joinLines_cons _ alone, List.append_right_inj,
          List.cons.injEq, eq_self, true_and]

end Lines

/-! ## Strings that are moved out -/

section Strings

variable {mark : Char} {body taken rest others : List Char} {units value : List Nat}

/-- So many digits are taken, and the character behind them decides whether it is the last. -/
theorem takeWhile_take_append {p : Char → Bool} {count : Nat}
    (length : (((taken ++ rest).take count).takeWhile p).length = taken.length)
    (same : others.head? = rest.head?) :
    ((taken ++ others).take count).takeWhile p = ((taken ++ rest).take count).takeWhile p := by
  induction taken generalizing count with
  | nil =>
      cases count with
      | zero => rfl
      | succ count =>
          cases rest with
          | nil => rw [List.head?_eq_none_iff.mp same]
          | cons c behind =>
              obtain ⟨_, rfl⟩ := List.head?_eq_some_iff.mp same
              have stops : ¬ p c = true := by
                intro more
                simp [more] at length
              rw [List.nil_append, List.nil_append, List.take_succ_cons, List.take_succ_cons,
                List.takeWhile_cons_of_neg stops, List.takeWhile_cons_of_neg stops]
  | cons c taken ih =>
      cases count with
      | zero => cases length
      | succ count =>
          rw [List.cons_append, List.take_succ_cons, List.takeWhile_cons] at length
          rw [List.cons_append, List.cons_append, List.take_succ_cons, List.take_succ_cons,
            List.takeWhile_cons, List.takeWhile_cons]
          split at length
          · rename_i more
            rw [if_pos more, if_pos more, ih (Nat.succ.inj length)]
          · cases length

theorem takeWhile_take_eq {p : Char → Bool} {count : Nat}
    (length : (((taken ++ rest).take count).takeWhile p).length = taken.length) :
    ((taken ++ rest).take count).takeWhile p = taken := by
  have isPrefix := (List.takeWhile_prefix p).trans (List.take_prefix count (taken ++ rest))
  rw [List.prefix_iff_eq_take.mp isPrefix, length, List.take_left]

theorem head?_append_eq (front : List Char) (same : others.head? = rest.head?) :
    (front ++ others).head? = (front ++ rest).head? := by
  rw [List.head?_append, List.head?_append, same]

/-- A sequence of digits has digits only, and depends on no more than the next character. -/
theorem digitEscape?_append (found : digitEscape? (taken ++ rest) = some (units, taken.length))
    (same : others.head? = rest.head?) :
    (∃ c more, taken = c :: more) ∧ (∀ c ∈ taken, isAsciiDigit c = true) ∧
      digitEscape? (taken ++ others) = some (units, taken.length) := by
  cases taken with
  | nil =>
      rw [List.nil_append] at found
      obtain ⟨c, behind, rfl, digit⟩ := exists_digit_of_digitEscape? found
      rw [digitEscape?] at found
      split at found
      · cases (Prod.mk.inj (Option.some.inj found)).2
      · cases (Prod.mk.inj (Option.some.inj found)).2
  | cons c more =>
      refine ⟨⟨c, more, rfl⟩, ?_⟩
      rw [List.cons_append, digitEscape?] at found
      rw [List.cons_append, digitEscape?]
      split at found
      · rename_i octal
        rw [if_pos octal]
        obtain ⟨isUnits, length⟩ := Prod.mk.inj (Option.some.inj found)
        rw [List.length_cons, List.length_cons, Nat.succ_inj] at length
        have taken := takeWhile_take_eq length
        rw [taken] at isUnits
        simp only [takeWhile_take_append length same, taken, isUnits, List.length_cons]
        refine ⟨List.forall_mem_cons.mpr ⟨isAsciiDigit_of_isOctal octal, fun d member => ?_⟩,
          trivial⟩
        exact isAsciiDigit_of_isOctal (List.mem_takeWhile_imp (taken ▸ member))
      · rename_i noOctal
        split at found
        · rename_i digit
          obtain ⟨isUnits, length⟩ := Prod.mk.inj (Option.some.inj found)
          obtain rfl := List.eq_nil_of_length_eq_zero (Nat.succ.inj length).symm
          rw [if_neg noOctal, if_pos digit, isUnits]
          exact ⟨List.forall_mem_singleton.mpr digit, rfl⟩
        · cases found

theorem misread_append (some : taken ≠ []) (same : others.head? = rest.head?) :
    misread (taken ++ others) = misread (taken ++ rest) := by
  cases taken with
  | nil => exact absurd rfl some
  | cons c more =>
      rw [List.cons_append, List.cons_append, misread, misread, isMarked, isMarked,
        head?_append_eq more same]

/-- Behind the backslash of a string stands a line end, which stays one, or what stays as it is. -/
theorem shift_escape_cases
    (stands : (Quoting.string mark).escape? (taken ++ rest) = some (units, taken.length)) :
    (units = [] ∧ misread (taken ++ rest) = false ∧
      ∀ column, shiftFrom column 0 (taken ++ rest) = '\n' :: shiftFrom column column rest) ∨
    (taken ≠ [] ∧
      (∀ column, shiftFrom column 0 (taken ++ rest) = taken ++ shiftFrom column 0 rest) ∧
      ∀ others, others.head? = rest.head? →
        (Quoting.string mark).escape? (taken ++ others) = some (units, taken.length)) := by
  rcases escape?_string_cases stands with isEscape | ⟨isNone, isDigits⟩
  · have others : ∀ others, others.head? = rest.head? →
        (Quoting.string mark).escape? (taken ++ others) = some (units, taken.length) := by
      intro others same
      have before := isEscape.before (fun apart => by rw [same, apart]) (fun line => same ▸ line)
      rw [Quoting.string_escape?, escape?_of_isEscape before, Option.some_or]
    have found := escape?_of_isEscape isEscape
    rcases isEscape.forms with ⟨c, rfl⟩ | rfl | letters
    · by_cases newline : c = '\n'
      · rw [newline] at found ⊢
        exact .inl ⟨(Prod.mk.inj (Option.some.inj found)).1.symm, rfl, fun _ => rfl⟩
      · refine .inr ⟨List.cons_ne_nil c [], fun column => ?_, others⟩
        refine shiftFrom_stays newline (fun isReturn follows => ?_) (.inl rfl)
        obtain ⟨behind, rfl⟩ := List.head?_eq_some_iff.mp follows
        rw [isReturn] at found
        cases (Prod.mk.inj (Option.some.inj found)).2
    · exact .inl ⟨(Prod.mk.inj (Option.some.inj found)).1.symm, rfl, fun _ => rfl⟩
    · have some : taken ≠ [] := by
        rintro rfl
        cases isEscape
      refine .inr ⟨some, fun column => shiftFrom_append (fun d member => ?_) rest, others⟩
      have letter := letters d member
      constructor
      all_goals
        rintro rfl
        exact absurd letter (by decide)
  · obtain ⟨⟨c, more, rfl⟩, digits, _⟩ := digitEscape?_append isDigits rfl
    refine .inr ⟨List.cons_ne_nil c more, fun column => shiftFrom_append (fun d member => ?_) rest,
      fun others same => ?_⟩
    · have digit := digits d member
      constructor
      all_goals
        rintro rfl
        exact absurd digit (by decide)
    · have none : escape? (c :: more ++ others) = none := by
        rw [List.cons_append, escape?_digit (digits c List.mem_cons_self)] at isNone ⊢
        rwa [head?_append_eq more same]
      rw [Quoting.string_escape?, none, Option.none_or, (digitEscape?_append isDigits same).2.2]

theorem shiftFrom_backslash (column left : Nat) (rest : List Char) :
    shiftFrom column left ('\\' :: rest) = '\\' :: shiftFrom column 0 rest :=
  shiftFrom_stays (by decide) (fun same => absurd same (by decide)) (.inr (by decide))

/-- Moving out takes nothing from the front of the text that is left. -/
theorem head?_shiftFrom (reads : (Quoting.string mark).Reads body value) (column : Nat) :
    (shiftFrom column 0 body).head? = body.head? := by
  cases reads with
  | nil => rfl
  | char _ stands _ =>
      obtain ⟨⟨_, inLine, noReturn⟩, _⟩ := Quoting.string_char?_eq_some_iff.mp stands
      rw [shiftFrom_stays inLine (fun same => absurd same noReturn) (.inl rfl)]
      rfl
  | escape _ _ =>
      rw [shiftFrom_backslash]
      rfl

/-- What becomes of a string that is moved out.  It loses as many units as characters, apart from
the ends of its lines, and what is misread stays so. -/
structure MovesOut (mark : Char) (column left : Nat) (body : List Char) (value moved : List Nat) :
    Prop where
  reads : (Quoting.string mark).Reads (shiftFrom column left body) moved
  sublist : moved.Sublist value
  length : moved.length + (shiftFrom 0 0 body).length =
    value.length + (shiftFrom column left body).length
  misread : ((Quoting.string mark).escapes 0 (shiftFrom column left body)).any misread =
    ((Quoting.string mark).escapes 0 body).any misread

theorem length_unitsOf_of_blank {c : Char} (blank : isBlank c = true) : (unitsOf c).length = 1 := by
  have small : c.toNat < 0x10000 := by
    simp only [isBlank, Bool.or_eq_true, Bool.and_eq_true, beq_iff_eq, decide_eq_true_eq] at blank
    omega
  rw [unitsOf, codeUnits, if_pos small, List.length_singleton]

namespace MovesOut

variable {c : Char} {column left : Nat} {moved : List Nat}

/-- A character that stays. -/
theorem kept (moves : MovesOut mark column 0 rest value moved) (plain : c ≠ '\\')
    (stands : (Quoting.string mark).char? c rest = some units)
    (firm : left = 0 ∨ isBlank c = false) :
    MovesOut mark column left (c :: rest) (units ++ value) (units ++ moved) := by
  obtain ⟨⟨_, inLine, noReturn⟩, _⟩ := Quoting.string_char?_eq_some_iff.mp stands
  have stays : ∀ {column left : Nat}, left = 0 ∨ isBlank c = false →
      shiftFrom column left (c :: rest) = c :: shiftFrom column 0 rest :=
    shiftFrom_stays inLine fun same => absurd same noReturn
  refine ⟨?_, (List.append_sublist_append_left units).mpr moves.sublist, ?_, ?_⟩
  · rw [stays firm]
    exact .char plain stands moves.reads
  · have length := moves.length
    rw [stays firm, stays (.inl rfl), List.length_append, List.length_append, List.length_cons,
      List.length_cons]
    omega
  · rw [stays firm, Quoting.escapes_char plain, Quoting.escapes_char plain, moves.misread]

/-- A blank that goes. -/
theorem dropped (moves : MovesOut mark column left rest value moved) (plain : c ≠ '\\')
    (stands : (Quoting.string mark).char? c rest = some units) (blank : isBlank c = true) :
    MovesOut mark column (left + 1) (c :: rest) (units ++ value) moved := by
  obtain ⟨⟨_, inLine, noReturn⟩, rfl⟩ := Quoting.string_char?_eq_some_iff.mp stands
  have goes : shiftFrom column (left + 1) (c :: rest) = shiftFrom column left rest :=
    shiftFrom_blank inLine (fun same => absurd same noReturn) blank
  have stays : shiftFrom 0 0 (c :: rest) = c :: shiftFrom 0 0 rest :=
    shiftFrom_stays inLine (fun same => absurd same noReturn) (.inl rfl)
  refine ⟨?_, moves.sublist.trans (List.sublist_append_right _ value), ?_, ?_⟩
  · rw [goes]
    exact moves.reads
  · have length := moves.length
    rw [goes, stays, List.length_append, length_unitsOf_of_blank blank, List.length_cons]
    omega
  · rw [goes, Quoting.escapes_char plain, moves.misread]

/-- A line end behind a backslash, whichever it is. -/
theorem lineEnd (moves : MovesOut mark column column rest value moved)
    (stands : (Quoting.string mark).escape? (taken ++ rest) = some ([], taken.length))
    (isRead : Text.misread (taken ++ rest) = false)
    (shifts : ∀ column, shiftFrom column 0 (taken ++ rest) = '\n' :: shiftFrom column column rest) :
    MovesOut mark column left ('\\' :: (taken ++ rest)) value moved := by
  have ends : (Quoting.string mark).escape? (['\n'] ++ shiftFrom column column rest) =
      some ([], ['\n'].length) := rfl
  refine ⟨?_, moves.sublist, ?_, ?_⟩
  · rw [shiftFrom_backslash, shifts]
    exact .escape ends moves.reads
  · have length := moves.length
    rw [shiftFrom_backslash, shiftFrom_backslash, shifts, shifts]
    simp only [List.length_cons]
    omega
  · have listed := Quoting.escapes_escape ends
    rw [List.singleton_append] at listed
    rw [shiftFrom_backslash, shifts, Quoting.escapes_escape stands, List.any_cons, isRead,
      Bool.false_or, ← moves.misread, listed, List.any_cons]
    rfl

/-- Any other escape sequence. -/
theorem escape (moves : MovesOut mark column 0 rest value moved)
    (reads : (Quoting.string mark).Reads rest value)
    (stands : (Quoting.string mark).escape? (taken ++ rest) = some (units, taken.length))
    (some : taken ≠ [])
    (shifts : ∀ column, shiftFrom column 0 (taken ++ rest) = taken ++ shiftFrom column 0 rest)
    (others : ∀ others, others.head? = rest.head? →
      (Quoting.string mark).escape? (taken ++ others) = .some (units, taken.length)) :
    MovesOut mark column left ('\\' :: (taken ++ rest)) (units ++ value) (units ++ moved) := by
  have heads := head?_shiftFrom reads column
  refine ⟨?_, (List.append_sublist_append_left units).mpr moves.sublist, ?_, ?_⟩
  · rw [shiftFrom_backslash, shifts]
    exact .escape (others _ heads) moves.reads
  · have length := moves.length
    rw [shiftFrom_backslash, shiftFrom_backslash, shifts, shifts]
    simp only [List.length_cons, List.length_append]
    omega
  · rw [shiftFrom_backslash, shifts, Quoting.escapes_escape (others _ heads),
      Quoting.escapes_escape stands, List.any_cons, List.any_cons, moves.misread,
      misread_append some heads]

end MovesOut

/-- By induction on the reading: blanks are only lost while some may still go. -/
theorem exists_movesOut (reads : (Quoting.string mark).Reads body value) (column left : Nat) :
    ∃ moved, MovesOut mark column left body value moved := by
  induction reads generalizing left with
  | nil => exact ⟨[], .nil, List.Sublist.refl _, rfl, rfl⟩
  | @char c _ _ _ plain stands _ ih =>
      by_cases firm : left = 0 ∨ isBlank c = false
      · obtain ⟨moved, moves⟩ := ih 0
        exact ⟨_, moves.kept plain stands firm⟩
      · rw [not_or, Bool.not_eq_false] at firm
        obtain ⟨less, rfl⟩ := Nat.exists_eq_succ_of_ne_zero firm.1
        obtain ⟨moved, moves⟩ := ih less
        exact ⟨moved, moves.dropped plain stands firm.2⟩
  | escape stands later ih =>
      rcases shift_escape_cases stands with ⟨rfl, isRead, shifts⟩ | ⟨some, shifts, others⟩
      · obtain ⟨moved, moves⟩ := ih column
        exact ⟨moved, moves.lineEnd stands isRead shifts⟩
      · obtain ⟨moved, moves⟩ := ih 0
        exact ⟨_, moves.escape later stands some shifts others⟩

/-- A string that is moved out, with its quotes. -/
theorem dedentContinuationChars_string (firm : IsFirm mark) (body : List Char) (column : Nat) :
    dedentContinuationChars column (mark :: (body ++ [mark])) =
      mark :: (shiftFrom column 0 body ++ [mark]) := by
  have noNewline : mark ≠ '\n' := by rintro rfl; exact absurd firm.1 (by decide)
  have noReturn : mark ≠ '\r' := by rintro rfl; exact absurd firm.1 (by decide)
  have ends : Ends (mark :: (body ++ [mark])) := (ends_singleton firm).append (mark :: body)
  rw [dedentContinuationChars_eq_shiftFrom ends, shiftFrom_stays noNewline
    (fun same => absurd same noReturn) (.inl rfl), shiftFrom_concat firm.1]

/-- A string keeps its value exactly if none of its other lines loses blanks. -/
theorem MovesOut.eq_iff {column : Nat} {moved : List Nat} (firm : IsFirm mark)
    (moves : MovesOut mark column 0 body value moved) :
    moved = value ↔
      ∀ line ∈ (lineChars (mark :: (body ++ [mark]))).tail, column = 0 ∨ indentWidth line = 0 := by
  rw [← dedentContinuationChars_eq_zero_iff, dedentContinuationChars_string firm,
    dedentContinuationChars_string firm, List.cons.injEq, eq_self, true_and, List.append_left_inj]
  have length := moves.length
  constructor
  · rintro rfl
    exact (shiftFrom_sublist column 0 body).eq_of_length (by omega)
  · intro same
    rw [same] at length
    exact moves.sublist.eq_of_length (by omega)

end Strings

end Text
end Hookify
