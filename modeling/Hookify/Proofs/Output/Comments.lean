import Hookify.Output.Generated
import Hookify.Proofs.Text.Replacement

namespace Hookify
namespace Output

/-!
# The report as a comment

The report stands at the end of a generated file as one documentation comment.
Its lines hold text of any kind: selectors, arguments, warnings and the names
of files.  A comment ends at the first end mark, so the end mark is broken up
in each line before the line gets its marker.

The replacement runs from the left and does not look back.  It puts no new end
mark together because a slash that it passes over follows a character that it
has also passed over: what is kept of a text begins as the text does.  Between
the lines there is a character that belongs to no end mark.
-/

/-! ## Pairs of characters -/

section Pairs

variable {first second : Char}

theorem pair_infix_cons_iff (c : Char) (rest : List Char) :
    [first, second] <:+: c :: rest ↔
      (first = c ∧ rest.head? = some second) ∨ [first, second] <:+: rest := by
  rw [List.infix_cons_iff, List.cons_prefix_cons]
  apply or_congr_left
  apply and_congr_right
  intro _
  cases rest with
  | nil => simp
  | cons next others => simp [List.cons_prefix_cons, eq_comm]

/-- A pair does not reach over a character that is none of the two. -/
theorem not_pair_infix_append {c : Char} (notFirst : first ≠ c) (notSecond : second ≠ c)
    {before after : List Char} (absentBefore : ¬ [first, second] <:+: before)
    (absentAfter : ¬ [first, second] <:+: after) :
    ¬ [first, second] <:+: before ++ c :: after := by
  induction before with
  | nil =>
      rw [List.nil_append, pair_infix_cons_iff]
      rintro (⟨same, _⟩ | later)
      · exact notFirst same
      · exact absentAfter later
  | cons d rest ih =>
      rw [pair_infix_cons_iff, not_or] at absentBefore
      rw [List.cons_append, pair_infix_cons_iff]
      rintro (⟨same, follows⟩ | later)
      · cases rest with
        | nil => exact notSecond (Option.some.inj follows).symm
        | cons next others => exact absentBefore.1 ⟨same, follows⟩
      · exact ih absentBefore.2 later

theorem pair_infix_append_iff {c : Char} (notFirst : first ≠ c) (notSecond : second ≠ c)
    (before after : List Char) :
    [first, second] <:+: before ++ c :: after ↔
      [first, second] <:+: before ∨ [first, second] <:+: after := by
  constructor
  · intro occurs
    by_contra absent
    rw [not_or] at absent
    exact not_pair_infix_append notFirst notSecond absent.1 absent.2 occurs
  · rintro (left | right)
    · exact left.trans (List.prefix_append _ _).isInfix
    · exact right.trans ((List.suffix_cons c after).trans (List.suffix_append _ _)).isInfix

end Pairs

/-! ## Broken end marks -/

section Replacement

variable {word new : List Char}

/-- If the new text begins as the word does, every text begins as before. -/
theorem head?_replaceFrom (sameStart : new.head? = word.head?) (nonempty : word ≠ [])
    (chars : List Char) : (Text.replaceFrom word new 0 chars).head? = chars.head? := by
  cases chars with
  | nil => rfl
  | cons c rest =>
      rw [Text.replaceFrom]
      split
      · rename_i starts
        cases word with
        | nil => exact absurd rfl nonempty
        | cons start others =>
            have same : start = c :=
              (List.cons_prefix_cons.mp (List.isPrefixOf_iff_prefix.mp starts)).1
            rw [List.head?_append, sameStart, same]
            rfl
      · rfl

end Replacement

/-- No end mark is left, wherever the replacement starts to read. -/
theorem not_endMark_replaceFrom (chars : List Char) :
    ∀ skip, ¬ ['*', '/'] <:+: Text.replaceFrom ['*', '/'] ['*', ' ', '/'] skip chars := by
  induction chars with
  | nil =>
      intro skip
      have nothing : Text.replaceFrom ['*', '/'] ['*', ' ', '/'] skip [] = [] := by
        cases skip <;> rfl
      rw [nothing]
      decide
  | cons c rest ih =>
      intro skip
      cases skip with
      | succ skip => exact ih skip
      | zero =>
          rw [Text.replaceFrom]
          split
          · have absent : ¬ ['*', '/'] <:+:
                '/' :: Text.replaceFrom ['*', '/'] ['*', ' ', '/'] 1 rest := by
              rw [pair_infix_cons_iff]
              rintro (⟨same, _⟩ | later)
              · exact absurd same (by decide)
              · exact ih 1 later
            change ¬ ['*', '/'] <:+:
              ['*'] ++ ' ' :: '/' :: Text.replaceFrom ['*', '/'] ['*', ' ', '/'] 1 rest
            exact not_pair_infix_append (by decide) (by decide) (by decide) absent
          · rename_i notHere
            have sameStart : ['*', ' ', '/'].head? = ['*', '/'].head? := rfl
            rw [pair_infix_cons_iff,
              head?_replaceFrom sameStart (List.cons_ne_nil '*' ['/']) rest]
            rintro (⟨rfl, follows⟩ | later)
            · -- the slash that follows is one of the text, so that the text has an end mark here
              rcases List.head?_eq_some_iff.mp follows with ⟨others, rfl⟩
              exact notHere rfl
            · exact ih 0 later

/-- A star before an end mark does not join with what the replacement makes of it. -/
example : Text.replace "*/" "* /" "**/*//" = "** /* //" := by decide +kernel

theorem not_endMark_docLine (line : String) : ¬ ['*', '/'] <:+: (docLine line).toList := by
  rw [docLine]
  split
  · decide
  · have absent := not_endMark_replaceFrom line.toList 0
    rw [← Text.replaceChars_eq (List.cons_ne_nil _ _)] at absent
    have shape : (" * " ++ Text.replace "*/" "* /" line).toList =
        [' ', '*'] ++ ' ' :: Text.replaceChars ['*', '/'] ['*', ' ', '/'] line.toList := by
      rw [String.toList_append, Text.replace, Text.overChars]
      simp
    rw [shape]
    exact not_pair_infix_append (by decide) (by decide) (by decide) absent

/-! ## The whole comment -/

/-- A documentation comment at the start of a line, without the end of its last line. -/
def docText (lines : List String) : String :=
  "/**\n" ++ String.join (lines.map fun line => docLine line ++ "\n") ++ " */"

/-- A text ends with a mark that does not occur in it before. -/
def EndsAtFirst (mark text : String) : Prop :=
  (∃ before, text = before ++ mark) ∧
    ∀ before after, text = before ++ mark ++ after → after = ""

theorem not_endMark_docRows (lines : List String) :
    ¬ ['*', '/'] <:+:
      (String.join (lines.map fun line => docLine line ++ "\n")).toList ++ [' ', '*'] := by
  induction lines with
  | nil => decide
  | cons line rest ih =>
      rw [List.map_cons, String.join_cons, String.toList_append, String.toList_append,
        List.append_assoc, List.append_assoc]
      exact not_pair_infix_append (by decide) (by decide) (not_endMark_docLine line) ih

/-- If a mark of two characters does not occur before its second character is written, it occurs
once. -/
theorem endsAtFirst_of_not_infix {text : String} (inside : List Char)
    (same : text.toList = inside ++ ['*'] ++ ['/']) (absent : ¬ ['*', '/'] <:+: inside ++ ['*']) :
    EndsAtFirst "*/" text := by
  constructor
  · refine ⟨String.ofList inside, String.toList_inj.mp ?_⟩
    rw [same, String.toList_append, String.toList_ofList, List.append_assoc]
    rfl
  · intro before after split
    have chars : inside ++ ['*'] ++ ['/'] = before.toList ++ ['*', '/'] ++ after.toList := by
      rw [← same, split, String.toList_append, String.toList_append]
      rfl
    rcases List.eq_nil_or_concat after.toList with empty | ⟨front, last, shape⟩
    · exact String.toList_eq_nil_iff.mp empty
    · exfalso
      rw [shape, List.concat_eq_append, ← List.append_assoc] at chars
      exact absent ⟨before.toList, front, (List.append_inj' chars rfl).1.symm⟩

/-- Whatever its lines are, a documentation comment has one end mark, at its end. -/
theorem docText_endsAtFirst (lines : List String) : EndsAtFirst "*/" (docText lines) := by
  apply endsAtFirst_of_not_infix (['/', '*', '*'] ++ '\n' ::
    ((String.join (lines.map fun line => docLine line ++ "\n")).toList ++ [' ']))
  · simp [docText]
  · have shape : ∀ rows : List Char,
        ['/', '*', '*'] ++ '\n' :: (rows ++ [' ']) ++ ['*'] =
          ['/', '*', '*'] ++ '\n' :: (rows ++ [' ', '*']) := by
      intro rows
      simp
    rw [shape]
    exact not_pair_infix_append (by decide) (by decide) (by decide) (not_endMark_docRows lines)

/-! ## The end of a file -/

theorem rowsOf_append (depth : Nat) (items others : List Item) :
    rowsOf depth (items ++ others) = rowsOf depth items ++ rowsOf depth others := by
  induction items with
  | nil => rfl
  | cons item rest ih => rw [List.cons_append, rowsOf, rowsOf, ih, List.append_assoc]

theorem print_append (items others : List Item) :
    print (items ++ others) = print items ++ print others := by
  rw [print, print, print, rowsOf_append, List.map_append, String.join_append]

theorem print_doc (lines : List String) : print [.doc lines] = docText lines ++ "\n" := by
  have noMargin : ∀ text, row 0 text = text := fun text => String.empty_append
  have rows : rowsOf 0 [.doc lines] = "/**" :: (lines.map docLine ++ [" */"]) := by
    simp [rowsOf, Item.rows, noMargin]
  rw [print, rows, docText]
  simp [String.join_cons, String.join_append, Function.comp_def, String.append_assoc]

/-- The report is the last item of a file. -/
theorem exists_items_eq (component : Component) (stylesheet : Option String) (report : Report) :
    ∃ others, items component stylesheet report = others ++ [.doc report.lines] := by
  obtain ⟨first, rest, shape⟩ : ∃ first rest, imports component stylesheet = first :: rest :=
    ⟨_, _, rfl⟩
  refine ⟨imports component stylesheet ++ .blank ::
    [header component,
      .block ("export default function " ++ component.name ++ "() \x7b") (body component) "\x7d",
      .blank], ?_⟩
  rw [items, shape]
  simp [separated]

/-- The entry of the report for an animation. -/
def animationEntry (animation : Animation) : String :=
  "  - " ++ animation.label ++ ": " ++ animation.suggestion

/-- The entries of the report for what could not be carried over. -/
def reportEntries (component : Component) : List String :=
  component.animations.map animationEntry ++ component.warnings.map ("  - " ++ ·)

theorem sublist_listed (title : String) (entries : List String) :
    entries.Sublist (Report.listed title entries) := by
  rw [Report.listed]
  split
  · rename_i empty
    rw [List.isEmpty_iff.mp empty]
  · exact List.sublist_append_right _ _

theorem reportEntries_sublist (component : Component) (stylesheet : Option String) :
    (reportEntries component).Sublist (Report.of component stylesheet).lines := by
  have animations := sublist_listed "Animations (not translated):"
    (component.animations.map animationEntry)
  have warnings := sublist_listed "Warnings:" (component.warnings.map ("  - " ++ ·))
  have both := (animations.append warnings).trans (List.sublist_append_left _
    (["", "Checklist:"] ++ (Report.tasks component stylesheet).map ("  [ ] " ++ ·)))
  rw [Report.lines, List.append_assoc, List.append_assoc, List.append_assoc]
  apply List.sublist_append_of_sublist_right
  rw [← List.append_assoc, Report.of, List.map_map]
  exact both

/-- Every entry is a line of the comment in which only the end mark has been broken up. -/
theorem docLine_reportEntry {component : Component} {entry : String}
    (member : entry ∈ reportEntries component) :
    docLine entry = " * " ++ Text.replace "*/" "* /" entry := by
  have filled : entry.isEmpty = false := by
    rcases List.mem_append.mp member with animation | warning
    · rcases List.mem_map.mp animation with ⟨animation, _, rfl⟩
      simp [animationEntry]
    · rcases List.mem_map.mp warning with ⟨warning, _, rfl⟩
      simp
  rw [docLine, filled, if_neg Bool.false_ne_true]

/-- The file of every component ends with one documentation comment, which holds the whole report.
The animations and warnings are listed in it in order, with nothing changed in them but their end
marks, and the only end mark of the comment is its own. -/
theorem generate_ends_in_report (component : Component) (stylesheetExtension : String) :
    let generated := generate component stylesheetExtension
    let comment := docText generated.report.lines
    (∃ others, generated.code = print others ++ comment ++ "\n") ∧
      ((reportEntries component).map fun entry => " * " ++ Text.replace "*/" "* /" entry).Sublist
        (generated.report.lines.map docLine) ∧
      EndsAtFirst "*/" comment := by
  intro generated comment
  refine ⟨?_, ?_, docText_endsAtFirst _⟩
  · let name := (stylesheetOf component stylesheetExtension).map (·.name)
    obtain ⟨others, shape⟩ := exists_items_eq component name (Report.of component name)
    refine ⟨others, ?_⟩
    calc generated.code
        = print (others ++ [.doc generated.report.lines]) := congrArg print shape
      _ = print others ++ comment ++ "\n" := by
          rw [print_append, print_doc, ← String.append_assoc]
  · have rows : ((reportEntries component).map fun entry =>
        " * " ++ Text.replace "*/" "* /" entry) = (reportEntries component).map docLine :=
      List.map_congr_left fun _ member => (docLine_reportEntry member).symm
    rw [rows]
    exact (reportEntries_sublist component _).map docLine

end Output
end Hookify
