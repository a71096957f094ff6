import Hookify.Proofs.Text.Lines
import Mathlib.Data.List.Forall2

namespace Hookify
namespace Text

/-!
# Texts that are alike up to notes

A note is a comment on one line.  Two texts are alike if they differ in notes
only.  Code is put in its place line by line: lines are trimmed, indented and
joined, and braces are taken off.  None of that looks into a note or takes one
apart, so what is done to two texts that are alike leaves them alike, and each
note in them stays as it is.
-/

/-- A comment that no line break divides. -/
structure IsNote (chars : List Char) : Prop where
  single : '\n' ∉ chars
  opens : chars.head? = some '/'
  closes : chars.getLast? = some '/'

theorem IsNote.reverse {chars : List Char} (note : IsNote chars) : IsNote chars.reverse where
  single := by rw [List.mem_reverse]; exact note.single
  opens := by rw [List.head?_reverse]; exact note.closes
  closes := by rw [List.getLast?_reverse]; exact note.opens

theorem IsNote.eq_cons {chars : List Char} (note : IsNote chars) : ∃ rest, chars = '/' :: rest :=
  List.head?_eq_some_iff.mp note.opens

/-- Characters that differ in notes only; which note may stand for which is given. -/
inductive AlikeChars (swaps : List Char → List Char → Prop) : List Char → List Char → Prop where
  | nil : AlikeChars swaps [] []
  | char (c : Char) {first second : List Char} (rest : AlikeChars swaps first second) :
      AlikeChars swaps (c :: first) (c :: second)
  | note {left right first second : List Char} (swap : swaps left right) (isNote : IsNote left)
      (alsoNote : IsNote right) (rest : AlikeChars swaps first second) :
      AlikeChars swaps (left ++ first) (right ++ second)

/-- Notes that may stand for each other, read from the end. -/
def Backwards (swaps : List Char → List Char → Prop) (left right : List Char) : Prop :=
  swaps left.reverse right.reverse

theorem backwards_reverse {swaps : List Char → List Char → Prop} {left right : List Char} :
    Backwards swaps left.reverse right.reverse ↔ swaps left right := by
  rw [Backwards, List.reverse_reverse, List.reverse_reverse]

namespace AlikeChars

variable {swaps : List Char → List Char → Prop} {first second before after : List Char}

theorem refl (swaps : List Char → List Char → Prop) (chars : List Char) :
    AlikeChars swaps chars chars := by
  induction chars with
  | nil => exact .nil
  | cons c rest ih => exact .char c ih

theorem append (alike : AlikeChars swaps first second) (behind : AlikeChars swaps before after) :
    AlikeChars swaps (first ++ before) (second ++ after) := by
  induction alike with
  | nil => exact behind
  | char c _ ih => exact .char c ih
  | note swap isNote alsoNote _ ih =>
      rw [List.append_assoc, List.append_assoc]
      exact .note swap isNote alsoNote ih

theorem flip (alike : AlikeChars swaps first second) :
    AlikeChars (fun left right => swaps right left) second first := by
  induction alike with
  | nil => exact .nil
  | char c _ ih => exact .char c ih
  | note swap isNote alsoNote _ ih => exact .note swap alsoNote isNote ih

theorem reverse (alike : AlikeChars swaps first second) :
    AlikeChars (Backwards swaps) first.reverse second.reverse := by
  induction alike with
  | nil => exact .nil
  | char c _ ih =>
      rw [List.reverse_cons, List.reverse_cons]
      exact ih.append (refl _ [c])
  | note swap isNote alsoNote _ ih =>
      have last := note (backwards_reverse.mpr swap) isNote.reverse alsoNote.reverse .nil
      rw [List.append_nil, List.append_nil] at last
      rw [List.reverse_append, List.reverse_append]
      exact ih.append last

theorem of_backwards (alike : AlikeChars (Backwards swaps) first second) :
    AlikeChars swaps first.reverse second.reverse := by
  have same : Backwards (Backwards swaps) = swaps := by
    funext left right
    rw [Backwards, Backwards, List.reverse_reverse, List.reverse_reverse]
  have turned := alike.reverse
  rwa [same] at turned

/-! ## Ends -/

/-- Two texts that are alike begin with the same character: a note begins with a slash. -/
theorem head?_eq (alike : AlikeChars swaps first second) : first.head? = second.head? := by
  cases alike with
  | nil => rfl
  | char c _ => rfl
  | note _ isNote alsoNote _ =>
      rw [List.head?_append, List.head?_append, isNote.opens, alsoNote.opens]
      rfl

theorem isEmpty_eq (alike : AlikeChars swaps first second) : first.isEmpty = second.isEmpty := by
  cases alike with
  | nil => rfl
  | char c _ => rfl
  | note _ isNote alsoNote _ =>
      rcases isNote.eq_cons with ⟨left, rfl⟩
      rcases alsoNote.eq_cons with ⟨right, rfl⟩
      rfl

theorem getLast?_eq (alike : AlikeChars swaps first second) :
    first.getLast? = second.getLast? := by
  rw [← List.head?_reverse, alike.reverse.head?_eq, List.head?_reverse]

/-- A character that begins no note stands in both texts. -/
theorem of_cons {c : Char} {rest : List Char} (alike : AlikeChars swaps (c :: rest) second)
    (other : c ≠ '/') : ∃ behind, second = c :: behind ∧ AlikeChars swaps rest behind := by
  generalize whole : c :: rest = chars at alike
  cases alike with
  | nil => cases whole
  | char _ alike =>
      cases whole
      exact ⟨_, rfl, alike⟩
  | note _ isNote _ _ =>
      rcases isNote.eq_cons with ⟨inside, rfl⟩
      cases whole
      exact absurd rfl other

/-- A character that ends no note stands in both texts. -/
theorem of_concat {c : Char} {rest : List Char} (alike : AlikeChars swaps (rest ++ [c]) second)
    (other : c ≠ '/') : ∃ front, second = front ++ [c] ∧ AlikeChars swaps rest front := by
  have turned := alike.reverse
  rw [List.reverse_concat] at turned
  rcases turned.of_cons other with ⟨front, same, inside⟩
  refine ⟨front.reverse, ?_, ?_⟩
  · rw [← List.reverse_cons, ← same, List.reverse_reverse]
  · have back := inside.of_backwards
    rwa [List.reverse_reverse] at back

/-- What has no slash has no note in it. -/
theorem eq_of_not_mem (alike : AlikeChars swaps first second) (plain : '/' ∉ first) :
    first = second := by
  induction alike with
  | nil => rfl
  | char c _ ih => rw [ih fun inside => plain (List.mem_cons_of_mem c inside)]
  | note _ isNote _ _ _ =>
      rcases isNote.eq_cons with ⟨inside, rfl⟩
      exact absurd List.mem_cons_self plain

/-- Where no note may stand for another, the texts are the same. -/
theorem eq_of_no_swap (alike : AlikeChars (fun _ _ => False) first second) : first = second := by
  induction alike with
  | nil => rfl
  | char c _ ih => rw [ih]
  | note swap _ _ _ _ => exact swap.elim

/-! ## Blanks -/

theorem dropWhile {drop : Char → Bool} (kept : drop '/' = false)
    (alike : AlikeChars swaps first second) :
    AlikeChars swaps (first.dropWhile drop) (second.dropWhile drop) := by
  induction alike with
  | nil => exact .nil
  | char c rest ih =>
      rw [List.dropWhile_cons, List.dropWhile_cons]
      split
      · exact ih
      · exact .char c rest
  | note swap isNote alsoNote rest _ =>
      have whole := note swap isNote alsoNote rest
      rcases isNote.eq_cons with ⟨left, rfl⟩
      rcases alsoNote.eq_cons with ⟨right, rfl⟩
      simp only [List.cons_append, List.dropWhile_cons, kept, Bool.false_eq_true, if_false]
      exact whole

theorem trimEnd (alike : AlikeChars swaps first second) :
    AlikeChars swaps (trimEndChars first) (trimEndChars second) :=
  (alike.reverse.dropWhile (by decide)).of_backwards

theorem trim (alike : AlikeChars swaps first second) :
    AlikeChars swaps (trimChars first) (trimChars second) :=
  (alike.dropWhile (by decide)).trimEnd

theorem isBlankChars_eq (alike : AlikeChars swaps first second) :
    isBlankChars first = isBlankChars second := by
  rw [isBlankChars, isBlankChars]
  induction alike with
  | nil => rfl
  | char c _ ih => rw [List.all_cons, List.all_cons, ih]
  | note _ isNote alsoNote _ _ =>
      have slash : isBlank '/' = false := by decide
      rcases isNote.eq_cons with ⟨left, rfl⟩
      rcases alsoNote.eq_cons with ⟨right, rfl⟩
      simp only [List.cons_append, List.all_cons, slash, Bool.false_and]

theorem indentWidth_eq (alike : AlikeChars swaps first second) :
    indentWidth first = indentWidth second := by
  rw [indentWidth, indentWidth]
  induction alike with
  | nil => rfl
  | char c _ ih =>
      rw [List.takeWhile_cons, List.takeWhile_cons]
      split
      · rw [List.length_cons, List.length_cons, ih]
      · rfl
  | note _ isNote alsoNote _ _ =>
      have slash : isBlank '/' = false := by decide
      rcases isNote.eq_cons with ⟨left, rfl⟩
      rcases alsoNote.eq_cons with ⟨right, rfl⟩
      simp only [List.cons_append, List.takeWhile_cons, slash, Bool.false_eq_true, if_false]

theorem stripIndent (width : Nat) (alike : AlikeChars swaps first second) :
    AlikeChars swaps (stripIndent width first) (stripIndent width second) := by
  induction alike generalizing width with
  | nil => exact refl swaps _
  | char c rest ih =>
      cases width with
      | zero => exact .char c rest
      | succ width =>
          rw [Text.stripIndent, Text.stripIndent]
          split
          · exact ih width
          · exact .char c rest
  | note swap isNote alsoNote rest _ =>
      have whole := note swap isNote alsoNote rest
      cases width with
      | zero => exact whole
      | succ width =>
          have slash : isBlank '/' = false := by decide
          rcases isNote.eq_cons with ⟨left, rfl⟩
          rcases alsoNote.eq_cons with ⟨right, rfl⟩
          simp only [List.cons_append, Text.stripIndent, slash, Bool.false_eq_true, if_false]
          exact whole

/-! ## Lines -/

theorem dropReturn (alike : AlikeChars swaps first second) :
    AlikeChars swaps (dropReturn first) (dropReturn second) := by
  have dropped : ∀ chars : List Char, Text.dropReturn chars =
      if chars.head? = some '\r' then chars.tail else chars := by
    intro chars
    rw [Text.dropReturn.eq_def]
    split
    · rfl
    · rename_i other
      rw [if_neg]
      intro begins
      rcases List.head?_eq_some_iff.mp begins with ⟨rest, rfl⟩
      exact other rest rfl
  rw [dropped, dropped, ← alike.head?_eq]
  split
  · rename_i begins
    rcases List.head?_eq_some_iff.mp begins with ⟨rest, rfl⟩
    rcases alike.of_cons (by decide) with ⟨behind, rfl, inside⟩
    exact inside
  · exact alike

theorem linesFrom {current currently : List Char}
    (so : AlikeChars (Backwards swaps) current currently)
    (alike : AlikeChars swaps first second) :
    List.Forall₂ (AlikeChars swaps) (linesFrom current first) (linesFrom currently second) := by
  induction alike generalizing current currently with
  | nil =>
      rw [Text.linesFrom, Text.linesFrom, so.isEmpty_eq]
      split
      · exact .nil
      · exact .cons so.of_backwards .nil
  | char c _ ih =>
      rw [Text.linesFrom, Text.linesFrom]
      split
      · exact .cons so.dropReturn.of_backwards (ih .nil)
      · exact ih (.char c so)
  | note swap isNote alsoNote _ ih =>
      rw [linesFrom_append isNote.single, linesFrom_append alsoNote.single]
      exact ih (note (backwards_reverse.mpr swap) isNote.reverse alsoNote.reverse so)

/-- Texts that are alike have lines that are alike. -/
theorem lineChars (alike : AlikeChars swaps first second) :
    List.Forall₂ (AlikeChars swaps) (lineChars first) (lineChars second) :=
  linesFrom .nil alike

end AlikeChars

section Lines

variable {swaps : List Char → List Char → Prop} {first second : List Char}
  {lines others : List (List Char)}

theorem alike_joinLines (alike : List.Forall₂ (AlikeChars swaps) lines others) :
    AlikeChars swaps (joinLines lines) (joinLines others) := by
  induction alike with
  | nil => exact .nil
  | cons line rest ih =>
      cases rest with
      | nil => exact line
      | cons next more => exact line.append (.char '\n' ih)

theorem alike_map {change other : List Char → List Char}
    (keeps : ∀ {first second}, AlikeChars swaps first second →
      AlikeChars swaps (change first) (other second))
    (alike : List.Forall₂ (AlikeChars swaps) lines others) :
    List.Forall₂ (AlikeChars swaps) (lines.map change) (others.map other) :=
  List.rel_map (fun _ _ line => keeps line) alike

theorem commonIndent_eq (alike : List.Forall₂ (AlikeChars swaps) lines others) :
    commonIndent lines = commonIndent others := by
  have widths : (lines.filter (! isBlankChars ·)).map indentWidth =
      (others.filter (! isBlankChars ·)).map indentWidth := by
    induction alike with
    | nil => rfl
    | cons line _ ih =>
        rw [List.filter_cons, List.filter_cons, line.isBlankChars_eq]
        split
        · rw [List.map_cons, List.map_cons, line.indentWidth_eq, ih]
        · exact ih
  rw [commonIndent, commonIndent, widths]

theorem alike_dedent (alike : AlikeChars swaps first second) :
    AlikeChars swaps (dedentChars first) (dedentChars second) := by
  have lines := alike.lineChars
  rw [dedentChars, dedentChars, commonIndent_eq lines]
  refine alike_joinLines (alike_map (fun line => ?_) lines)
  rw [line.isBlankChars_eq]
  split
  · exact .nil
  · exact line.stripIndent _

theorem alike_squeezeLines (alike : List.Forall₂ (AlikeChars swaps) lines others)
    (blankBefore : Bool) :
    List.Forall₂ (AlikeChars swaps) (squeezeLines blankBefore lines)
      (squeezeLines blankBefore others) := by
  induction alike generalizing blankBefore with
  | nil => exact .nil
  | cons line _ ih =>
      have trimmed := line.trimEnd
      rw [squeezeLines, squeezeLines, trimmed.isEmpty_eq]
      split
      · split
        · exact ih true
        · exact .cons .nil (ih true)
      · exact .cons trimmed (ih false)

theorem alike_dropTrailingEmpty (alike : List.Forall₂ (AlikeChars swaps) lines others) :
    List.Forall₂ (AlikeChars swaps) (dropTrailingEmpty lines) (dropTrailingEmpty others) := by
  have dropped : ∀ {lines others : List (List Char)},
      List.Forall₂ (AlikeChars swaps) lines others →
        List.Forall₂ (AlikeChars swaps) (lines.dropWhile List.isEmpty)
          (others.dropWhile List.isEmpty) := by
    intro lines others alike
    induction alike with
    | nil => exact .nil
    | cons line rest ih =>
        rw [List.dropWhile_cons, List.dropWhile_cons, line.isEmpty_eq]
        split
        · exact ih
        · exact .cons line rest
  exact List.rel_reverse (dropped (List.rel_reverse alike))

theorem alike_tidy (alike : AlikeChars swaps first second) :
    AlikeChars swaps (tidyChars first) (tidyChars second) :=
  alike_joinLines (alike_dropTrailingEmpty (alike_squeezeLines alike.lineChars true))

theorem enclosed?_eq_some_iff {opening closing : Char} {chars inside : List Char} :
    enclosed? opening closing chars = some inside ↔
      chars = opening :: (inside ++ [closing]) := by
  cases chars with
  | nil => simp [enclosed?]
  | cons c rest =>
      simp only [enclosed?, Option.ite_none_right_eq_some, Bool.and_eq_true, beq_iff_eq,
        Option.some.injEq, List.cons.injEq]
      constructor
      · rintro ⟨⟨opens, closes⟩, rfl⟩
        exact ⟨opens, (List.dropLast_append_getLast? closing closes).symm⟩
      · rintro ⟨opens, rfl⟩
        exact ⟨⟨opens, List.getLast?_concat⟩, List.dropLast_concat⟩

/-- Braces around a text are no part of a note. -/
theorem alike_enclosed? (alike : AlikeChars swaps first second) {opening closing : Char}
    (opens : opening ≠ '/') (closes : closing ≠ '/') :
    AlikeChars swaps ((enclosed? opening closing first).getD first)
      ((enclosed? opening closing second).getD second) := by
  have taken : ∀ {swaps} {first second inside : List Char}, AlikeChars swaps first second →
      enclosed? opening closing first = some inside →
        ∃ within, enclosed? opening closing second = some within ∧
          AlikeChars swaps inside within := by
    intro swaps first second inside alike found
    rw [enclosed?_eq_some_iff.mp found] at alike
    rcases alike.of_cons opens with ⟨rest, rfl, behind⟩
    rcases behind.of_concat closes with ⟨within, rfl, between⟩
    exact ⟨within, enclosed?_eq_some_iff.mpr rfl, between⟩
  cases found : enclosed? opening closing first with
  | some inside =>
      rcases taken alike found with ⟨within, also, between⟩
      rw [also]
      exact between
  | none =>
      cases other : enclosed? opening closing second with
      | none => exact alike
      | some within =>
          rcases taken alike.flip other with ⟨inside, also, _⟩
          rw [found] at also
          cases also

theorem alike_blockInner (alike : AlikeChars swaps first second) :
    AlikeChars swaps (blockInnerChars first) (blockInnerChars second) :=
  alike_dedent (alike_tidy (alike_enclosed? alike.trim (by decide) (by decide)))

theorem alike_indent (margin : List Char) (alike : AlikeChars swaps first second) :
    AlikeChars swaps (indentChars margin first) (indentChars margin second) := by
  refine alike_joinLines (alike_map (fun line => ?_) alike.lineChars)
  rw [line.isEmpty_eq]
  split
  · exact .nil
  · exact (AlikeChars.refl swaps margin).append line

theorem alike_indentContinuation (margin : List Char) (alike : AlikeChars swaps first second) :
    AlikeChars swaps (indentContinuationChars margin first)
      (indentContinuationChars margin second) := by
  have lines := alike.lineChars
  rw [indentContinuationChars, indentContinuationChars]
  generalize lineChars first = before at lines
  generalize lineChars second = after at lines
  cases lines with
  | nil => exact .nil
  | cons start rest =>
      refine alike_joinLines (.cons start (alike_map (fun line => ?_) rest))
      rw [line.isEmpty_eq]
      split
      · exact .nil
      · exact (AlikeChars.refl swaps margin).append line

theorem alike_dedentContinuation (column : Nat) (alike : AlikeChars swaps first second) :
    AlikeChars swaps (dedentContinuationChars column first)
      (dedentContinuationChars column second) := by
  have lines := alike.lineChars
  rw [dedentContinuationChars, dedentContinuationChars]
  generalize lineChars first = before at lines
  generalize lineChars second = after at lines
  cases lines with
  | nil => exact .nil
  | cons start rest =>
      exact alike_joinLines (.cons start (alike_map (fun line => line.stripIndent column) rest))

end Lines

/-! ## Texts -/

/-- Texts that differ in notes only; which note may stand for which is given. -/
def Alike (swaps : String → String → Prop) (first second : String) : Prop :=
  AlikeChars (fun left right => swaps (String.ofList left) (String.ofList right))
    first.toList second.toList

namespace Alike

variable {swaps : String → String → Prop} {first second before after : String}

theorem refl (swaps : String → String → Prop) (text : String) : Alike swaps text text :=
  AlikeChars.refl _ text.toList

theorem iff_eq : Alike (fun _ _ => False) first second ↔ first = second := by
  constructor
  · exact fun alike => String.toList_injective (AlikeChars.eq_of_no_swap alike)
  · rintro rfl
    exact .refl _ first

theorem flip (alike : Alike swaps first second) :
    Alike (fun left right => swaps right left) second first :=
  AlikeChars.flip alike

theorem of_swap (swap : swaps first second) (isNote : IsNote first.toList)
    (alsoNote : IsNote second.toList) : Alike swaps first second := by
  have whole : AlikeChars (fun left right => swaps (String.ofList left) (String.ofList right))
      (first.toList ++ []) (second.toList ++ []) := by
    refine .note ?_ isNote alsoNote .nil
    rw [String.ofList_toList, String.ofList_toList]
    exact swap
  rwa [List.append_nil, List.append_nil] at whole

theorem append (alike : Alike swaps first second) (behind : Alike swaps before after) :
    Alike swaps (first ++ before) (second ++ after) := by
  rw [Alike, String.toList_append, String.toList_append]
  exact AlikeChars.append alike behind

/-- What stands before and behind a text stays. -/
theorem within (start : String) (alike : Alike swaps first second) (stop : String) :
    Alike swaps (start ++ first ++ stop) (start ++ second ++ stop) :=
  ((refl swaps start).append alike).append (refl swaps stop)

theorem behind (start : String) (alike : Alike swaps first second) :
    Alike swaps (start ++ first) (start ++ second) :=
  (refl swaps start).append alike

theorem of_chars {change : List Char → List Char}
    (keeps : ∀ {swaps : List Char → List Char → Prop} {left right : List Char},
      AlikeChars swaps left right → AlikeChars swaps (change left) (change right))
    (alike : Alike swaps first second) :
    Alike swaps (overChars change first) (overChars change second) := by
  rw [Alike, toList_overChars, toList_overChars]
  exact keeps alike

theorem blockInner (alike : Alike swaps first second) :
    Alike swaps (blockInner first) (blockInner second) :=
  alike.of_chars alike_blockInner

theorem indent (margin : String) (alike : Alike swaps first second) :
    Alike swaps (indent margin first) (indent margin second) :=
  alike.of_chars (alike_indent margin.toList)

theorem indentContinuation (margin : String) (alike : Alike swaps first second) :
    Alike swaps (indentContinuation margin first) (indentContinuation margin second) :=
  alike.of_chars (alike_indentContinuation margin.toList)

theorem dedentContinuation (column : Nat) (alike : Alike swaps first second) :
    Alike swaps (dedentContinuation column first) (dedentContinuation column second) :=
  alike.of_chars (alike_dedentContinuation column)

theorem isEmpty_eq (alike : Alike swaps first second) : first.isEmpty = second.isEmpty := by
  have same := AlikeChars.isEmpty_eq alike
  rwa [Bool.eq_iff_iff, List.isEmpty_iff, List.isEmpty_iff, String.toList_eq_nil_iff,
    String.toList_eq_nil_iff, ← String.isEmpty_iff, ← String.isEmpty_iff, ← Bool.eq_iff_iff] at same

/-- A text without a slash has no note in it. -/
theorem eq_of_not_mem (alike : Alike swaps first second) (plain : '/' ∉ first.toList) :
    first = second :=
  String.toList_inj.mp (AlikeChars.eq_of_not_mem alike plain)

theorem intercalate (separator : String) {texts others : List String}
    (alike : List.Forall₂ (Alike swaps) texts others) :
    Alike swaps (String.intercalate separator texts) (String.intercalate separator others) := by
  induction alike with
  | nil => exact refl swaps _
  | cons head tail ih =>
      cases tail with
      | nil =>
          rw [String.intercalate_singleton, String.intercalate_singleton]
          exact head
      | cons _ _ =>
          rw [String.intercalate_cons_of_ne_nil (List.cons_ne_nil _ _),
            String.intercalate_cons_of_ne_nil (List.cons_ne_nil _ _)]
          exact (head.append (refl swaps separator)).append ih

end Alike

end Text
end Hookify
