import Hookify.Proofs.Output.Comments
import Hookify.Proofs.Text.Unmoved

namespace Hookify
namespace Output

/-!
# Items and their rows

The items of a file are nested, and each of them is laid out at its depth.  What
an item is laid out to does not depend on the items around it, so that the code
of an item is found in the file with nothing but its margin added.

At a greater depth the rows of an item are the same ones, moved in.  An empty row
stays empty, which is why a line of an item must not be empty itself: a line gets
the margin in any case.  The code of a block comes in a form that the layout has
nothing to change in, so that its rows are its lines.
-/

/-! ## The items of a component -/

theorem mem_separated {item : Item} {group : List Item} {groups : List (List Item)}
    (listed : group ∈ groups) (member : item ∈ group) : item ∈ separated groups := by
  induction groups with
  | nil => exact absurd listed List.not_mem_nil
  | cons first rest ih =>
      rw [separated.eq_def]
      dsimp only
      rcases List.mem_cons.mp listed with rfl | later
      · split
        · exact absurd member List.not_mem_nil
        · exact member
        · exact List.mem_append_left _ member
      · have among := ih later
        split
        · exact among
        · rename_i none
          rw [none] at among
          exact absurd among List.not_mem_nil
        · exact List.mem_append_right _ (List.mem_cons_of_mem _ among)

section Body

variable {component : Component}

theorem mem_body_of_handler {found : Handler} (member : found ∈ component.handlers) :
    handler found ∈ body component := by
  have own := List.mem_map_of_mem (f := fun found => [handler found]) member
  have among := mem_separated own (List.mem_singleton_self (handler found))
  exact mem_separated (by simp) among

theorem mem_body_of_function {found : NamedFunction} (member : found ∈ component.functions) :
    function found ∈ body component := by
  have own := List.mem_map_of_mem (f := fun found => [function found]) member
  have among := mem_separated own (List.mem_singleton_self (function found))
  exact mem_separated (by simp) among

theorem mem_body_of_effect {found : Effect} (member : found ∈ component.effects) {item : Item}
    (written : item ∈ effect found) : item ∈ body component :=
  mem_separated (by simp) (mem_separated (List.mem_map_of_mem member) written)

theorem mem_body_of_constant {found : StateVariable} (member : found ∈ component.constants) :
    constant found ∈ body component :=
  mem_separated (by simp) (List.mem_map_of_mem (f := constant) member)

theorem mem_body_of_reactive {found : StateVariable} (member : found ∈ component.reactiveStates) :
    reactive found ∈ body component :=
  mem_separated (by simp) (List.mem_map_of_mem (f := reactive) member)

end Body

/-! ## Rows and their text -/

/-- Rows one below the other, each with its line end. -/
def textOf (rows : List String) : String :=
  String.join (rows.map (· ++ "\n"))

/-- A row further in; an empty one is left as it is. -/
def indentRow (front row : String) : String :=
  if row.isEmpty then "" else front ++ row

section Rows

variable {rows : List String}

theorem print_eq (items : List Item) : print items = textOf (rowsOf 0 items) := rfl

theorem textOf_append (rows others : List String) :
    textOf (rows ++ others) = textOf rows ++ textOf others := by
  rw [textOf, textOf, textOf, List.map_append, String.join_append]

theorem textOf_cons (row : String) (rows : List String) :
    textOf (row :: rows) = row ++ "\n" ++ textOf rows := by
  rw [textOf, List.map_cons, String.join_cons, textOf]

theorem toList_textOf_cons (row : String) (rows : List String) :
    (textOf (row :: rows)).toList = row.toList ++ '\n' :: (textOf rows).toList := by
  rw [textOf_cons]
  simp

theorem textOf_eq_joinLines (some : rows ≠ []) :
    textOf rows = String.ofList (Text.joinLines (rows.map String.toList)) ++ "\n" := by
  induction rows with
  | nil => exact absurd rfl some
  | cons row rest ih =>
      rw [textOf_cons]
      by_cases last : rest = []
      · simp [last, Text.joinLines, textOf]
      · have more : rest.map String.toList ≠ [] := by simpa using last
        rw [ih last, List.map_cons, Text.joinLines_cons _ more]
        apply String.toList_inj.mp
        simp

/-- Rows are read from their text again. -/
theorem lines_textOf (whole : ∀ row ∈ rows, Text.IsWhole row.toList) :
    Text.lines (textOf rows) = rows := by
  rw [Text.lines]
  induction rows with
  | nil => rfl
  | cons row rest ih =>
      obtain ⟨first, later⟩ := List.forall_mem_cons.mp whole
      rw [toList_textOf_cons, Text.lineChars_append_newline first.1, first.dropReturn_reverse,
        List.map_cons, ih later, String.ofList_toList]

/-- Code gets the margin of its place. -/
theorem rows_code (depth : Nat) (text : String) :
    (Item.code text).rows depth = (codeLines text).map (indentRow (margin depth)) := rfl

end Rows

/-! ## Items inside other items -/

/-- An item stands among items, or inside of one of them; the first number is its depth, the second
that of the items. -/
inductive Within (depth : Nat) (item : Item) : Nat → List Item → Prop where
  | here {items : List Item} (member : item ∈ items) : Within depth item depth items
  | block {outer : Nat} {items body : List Item} {opening closing : String}
      (member : .block opening body closing ∈ items) (below : Within depth item (outer + 1) body) :
      Within depth item outer items

/-- The rows of an item are found among the rows of all. -/
theorem Within.exists_rows {depth outer : Nat} {item : Item} {items : List Item}
    (within : Within depth item outer items) :
    ∃ before after, rowsOf outer items = before ++ item.rows depth ++ after := by
  have split : ∀ (outer : Nat) {items : List Item} {other : Item}, other ∈ items →
      ∃ before after, rowsOf outer items = before ++ other.rows outer ++ after := by
    intro outer items other member
    obtain ⟨above, below, rfl⟩ := List.append_of_mem member
    refine ⟨rowsOf outer above, rowsOf outer below, ?_⟩
    rw [rowsOf_append, rowsOf, List.append_assoc]
  induction within with
  | here member => exact split _ member
  | @block outer items body opening closing member below ih =>
      obtain ⟨before, after, inner⟩ := ih
      obtain ⟨above, under, rows⟩ := split outer member
      refine ⟨above ++ row outer opening :: before, after ++ (row outer closing :: under), ?_⟩
      rw [rows, Item.rows, inner]
      simp

/-- Code is laid out as it stands when it is tidied, has lost its indentation and has got the margin
of its place. -/
theorem exists_textOf_rows_code (depth : Nat) (text : String) : ∃ after,
    textOf ((Item.code text).rows depth) =
      Text.indent (margin depth) (Text.dedent (Text.tidy text)) ++ after := by
  have rows : ((Item.code text).rows depth).map String.toList =
      (Text.lineChars (Text.dedent (Text.tidy text)).toList).map fun line =>
        if line.isEmpty then [] else (margin depth).toList ++ line := by
    rw [rows_code, codeLines, Text.lines, List.map_map, List.map_map]
    refine List.map_congr_left fun line _ => ?_
    simp only [Function.comp_apply, indentRow]
    cases line <;> simp
  have laidOut : String.ofList (Text.joinLines (((Item.code text).rows depth).map String.toList)) =
      Text.indent (margin depth) (Text.dedent (Text.tidy text)) := by
    rw [rows]
    rfl
  by_cases none : (Item.code text).rows depth = []
  · refine ⟨"", ?_⟩
    rw [← laidOut, none]
    rfl
  · exact ⟨"\n", by rw [textOf_eq_joinLines none, laidOut]⟩

/-- The text of an item stands in the file, between whole rows. -/
theorem Within.exists_textOf {depth : Nat} {item : Item} {items : List Item}
    (within : Within depth item 0 items) : ∃ above below,
      print items = textOf above ++ textOf (item.rows depth) ++ textOf below := by
  obtain ⟨above, below, rows⟩ := within.exists_rows
  exact ⟨above, below, by rw [print_eq, rows, textOf_append, textOf_append]⟩

/-- So it is found in the file. -/
theorem Within.exists_print {depth : Nat} {text : String} {items : List Item}
    (within : Within depth (.code text) 0 items) : ∃ before after,
      print items =
        before ++ Text.indent (margin depth) (Text.dedent (Text.tidy text)) ++ after := by
  obtain ⟨above, below, printed⟩ := within.exists_textOf
  obtain ⟨behind, code⟩ := exists_textOf_rows_code depth text
  refine ⟨textOf above, behind ++ textOf below, ?_⟩
  rw [printed, code]
  simp only [String.append_assoc]

/-! ## Items at any depth -/

/-- Put `front` before the first character of every line; `fresh` tells that a line begins. -/
def indentFrom (front : List Char) (fresh : Bool) : List Char → List Char
  | [] => []
  | c :: rest =>
      if c == '\n' then c :: indentFrom front true rest
      else if fresh then front ++ c :: indentFrom front false rest
      else c :: indentFrom front false rest

/-- A text with `front` before every line that is not empty. -/
def indented (front text : String) : String :=
  String.ofList (indentFrom front.toList true text.toList)

/-- A text that is one line, and not an empty one. -/
def isRow (text : String) : Bool :=
  ! text.isEmpty && ! text.toList.contains '\n'

mutual

/-- The lines that an item is made of are lines. -/
def Item.isPlain : Item → Bool
  | .line text => isRow text
  | .blank => true
  | .comment _ => true
  | .code _ => true
  | .block opening body closing => isRow opening && arePlain body && isRow closing
  | .doc lines => lines.all fun line => ! line.toList.contains '\n'

/-- The same for items. -/
def arePlain : List Item → Bool
  | [] => true
  | item :: rest => item.isPlain && arePlain rest

end

section Depth

variable {text : String} {rows : List String}

theorem isRow_iff : isRow text = true ↔ text ≠ "" ∧ '\n' ∉ text.toList := by
  simp [isRow]

theorem isPlain_block {opening closing : String} {body : List Item} :
    (Item.block opening body closing).isPlain = true ↔
      isRow opening = true ∧ arePlain body = true ∧ isRow closing = true := by
  rw [Item.isPlain, Bool.and_eq_true, Bool.and_eq_true, and_assoc]

theorem arePlain_cons {item : Item} {rest : List Item} :
    arePlain (item :: rest) = true ↔ item.isPlain = true ∧ arePlain rest = true := by
  rw [arePlain, Bool.and_eq_true]

theorem margin_add (depth inner : Nat) : margin (depth + inner) = margin depth ++ margin inner := by
  rw [margin, margin, margin, Nat.mul_add, ← List.replicate_append_replicate, String.ofList_append]

/-- A row that is moved in is the row of a greater depth. -/
theorem indentRow_row (depth inner : Nat) (some : text ≠ "") :
    indentRow (margin depth) (row inner text) = row (depth + inner) text := by
  have filled : ¬ (row inner text).isEmpty = true := by
    rw [String.isEmpty_iff, row, String.append_eq_empty_iff]
    exact fun both => some both.2
  rw [indentRow, if_neg filled, row, row, margin_add, String.append_assoc]

theorem commentLine_ne_empty (line : String) : commentLine line ≠ "" := by
  rw [commentLine]
  split <;> simp

theorem docLine_ne_empty (line : String) : docLine line ≠ "" := by
  rw [docLine]
  split <;> simp

mutual

/-- An item is laid out at a greater depth as it is at a smaller one, with a margin before its
rows.  The smaller depth is any one, since it grows by one on the way into a block. -/
theorem Item.rows_add (depth inner : Nat) : ∀ item : Item, item.isPlain = true →
    item.rows (depth + inner) = (item.rows inner).map (indentRow (margin depth))
  | .line text, plain => by
      rw [Item.rows, Item.rows, List.map_singleton,
        indentRow_row depth inner (isRow_iff.mp plain).1]
  | .blank, _ => rfl
  | .comment text, _ => by
      rw [Item.rows, Item.rows, List.map_map]
      exact List.map_congr_left fun line _ =>
        (indentRow_row depth inner (commentLine_ne_empty line)).symm
  | .code text, _ => by
      rw [Item.rows, Item.rows, List.map_map]
      refine List.map_congr_left fun line _ => ?_
      rw [Function.comp_apply]
      cases empty : line.isEmpty with
      | true => rfl
      | false => exact (indentRow_row depth inner (String.isEmpty_eq_false_iff.mp empty)).symm
  | .block opening body closing, plain => by
      obtain ⟨opens, inside, closes⟩ := isPlain_block.mp plain
      rw [Item.rows, Item.rows, List.map_cons, List.map_append, List.map_singleton,
        indentRow_row depth inner (isRow_iff.mp opens).1,
        indentRow_row depth inner (isRow_iff.mp closes).1, Nat.add_assoc,
        rowsOf_add depth (inner + 1) body inside]
  | .doc docRows, _ => by
      have lines : (docRows.map fun line => row (depth + inner) (docLine line)) =
          (docRows.map fun line => row inner (docLine line)).map (indentRow (margin depth)) := by
        rw [List.map_map]
        exact List.map_congr_left fun line _ =>
          (indentRow_row depth inner (docLine_ne_empty line)).symm
      rw [Item.rows, Item.rows, List.map_cons, List.map_append, List.map_singleton, lines,
        indentRow_row depth inner (by decide), indentRow_row depth inner (by decide)]

theorem rowsOf_add (depth inner : Nat) : ∀ items : List Item, arePlain items = true →
    rowsOf (depth + inner) items = (rowsOf inner items).map (indentRow (margin depth))
  | [], _ => rfl
  | item :: rest, plain => by
      obtain ⟨first, later⟩ := arePlain_cons.mp plain
      rw [rowsOf, rowsOf, List.map_append, item.rows_add depth inner first,
        rowsOf_add depth inner rest later]

end

/-! ### The rows are lines -/

theorem newline_not_mem_row (depth : Nat) (single : '\n' ∉ text.toList) :
    '\n' ∉ (row depth text).toList := by
  rw [row, String.toList_append, List.mem_append, not_or, margin, String.toList_ofList]
  exact ⟨fun member => absurd (List.eq_of_mem_replicate member) (by decide), single⟩

theorem newline_not_mem_of_mem_lines {line : String} (member : line ∈ Text.lines text) :
    '\n' ∉ line.toList := by
  obtain ⟨chars, inside, rfl⟩ := List.mem_map.mp member
  rw [String.toList_ofList]
  exact Text.newline_not_mem_lineChars inside

theorem newline_not_mem_commentLine {line : String} (single : '\n' ∉ line.toList) :
    '\n' ∉ (commentLine line).toList := by
  rw [commentLine]
  split
  · decide
  · rw [String.toList_append, List.mem_append, not_or]
    exact ⟨by decide, single⟩

theorem newline_not_mem_docLine {line : String} (single : '\n' ∉ line.toList) :
    '\n' ∉ (docLine line).toList := by
  rw [docLine]
  split
  · decide
  · rw [String.toList_append, List.mem_append, not_or, Text.replace, Text.toList_overChars]
    refine ⟨by decide, fun member => ?_⟩
    rcases Text.mem_replaceChars (by decide) member with old | new
    · exact single old
    · exact absurd new (by decide)

mutual

/-- The rows of an item are lines. -/
theorem Item.newline_not_mem_rows (depth : Nat) : ∀ item : Item, item.isPlain = true →
    ∀ found ∈ item.rows depth, '\n' ∉ found.toList
  | .line text, plain => by
      rw [Item.rows, List.forall_mem_singleton]
      exact newline_not_mem_row depth (isRow_iff.mp plain).2
  | .blank, _ => by
      rw [Item.rows, List.forall_mem_singleton]
      decide
  | .comment text, _ => by
      rw [Item.rows, List.forall_mem_map]
      intro line member
      have single := newline_not_mem_commentLine (newline_not_mem_of_mem_lines member)
      exact newline_not_mem_row depth single
  | .code text, _ => by
      rw [Item.rows, List.forall_mem_map]
      intro line member
      split
      · decide
      · exact newline_not_mem_row depth (newline_not_mem_of_mem_lines member)
  | .block opening body closing, plain => by
      obtain ⟨opens, inside, closes⟩ := isPlain_block.mp plain
      rw [Item.rows, List.forall_mem_cons, List.forall_mem_append, List.forall_mem_singleton]
      exact ⟨newline_not_mem_row depth (isRow_iff.mp opens).2,
        newline_not_mem_rowsOf (depth + 1) body inside,
        newline_not_mem_row depth (isRow_iff.mp closes).2⟩
  | .doc docRows, plain => by
      rw [Item.isPlain, List.all_eq_true] at plain
      rw [Item.rows, List.forall_mem_cons, List.forall_mem_append, List.forall_mem_singleton,
        List.forall_mem_map]
      refine ⟨newline_not_mem_row depth (by decide), fun line member => ?_,
        newline_not_mem_row depth (by decide)⟩
      exact newline_not_mem_row depth (newline_not_mem_docLine (by simpa using plain line member))

theorem newline_not_mem_rowsOf (depth : Nat) : ∀ items : List Item, arePlain items = true →
    ∀ found ∈ rowsOf depth items, '\n' ∉ found.toList
  | [], _ => fun _ member => absurd member List.not_mem_nil
  | item :: rest, plain => by
      obtain ⟨first, later⟩ := arePlain_cons.mp plain
      rw [rowsOf, List.forall_mem_append]
      exact ⟨item.newline_not_mem_rows depth first, newline_not_mem_rowsOf depth rest later⟩

end

/-- Inside of a line nothing is put in. -/
theorem indentFrom_line {line : List Char} (single : '\n' ∉ line) (front rest : List Char) :
    indentFrom front false (line ++ '\n' :: rest) = line ++ '\n' :: indentFrom front true rest := by
  induction line with
  | nil => rfl
  | cons c others ih =>
      rw [List.mem_cons, not_or] at single
      have other : ¬ (c == '\n') = true := fun same => single.1 (eq_of_beq same).symm
      rw [List.cons_append, indentFrom, if_neg other, if_neg Bool.false_ne_true, ih single.2,
        List.cons_append]

theorem indentFrom_row (single : '\n' ∉ text.toList) (front : String) (rest : List Char) :
    indentFrom front.toList true (text.toList ++ '\n' :: rest) =
      (indentRow front text).toList ++ '\n' :: indentFrom front.toList true rest := by
  rw [indentRow]
  cases chars : text.toList with
  | nil =>
      rw [String.toList_eq_nil_iff.mp chars]
      rfl
  | cons c others =>
      rw [chars, List.mem_cons, not_or] at single
      have other : ¬ (c == '\n') = true := fun same => single.1 (eq_of_beq same).symm
      have some : ¬ text.isEmpty = true := by
        rw [String.isEmpty_iff]
        rintro rfl
        cases chars
      rw [List.cons_append, indentFrom, if_neg other, if_pos rfl, indentFrom_line single.2,
        if_neg some, String.toList_append, chars]
      simp

/-- The text of rows that are moved in is the indented text of the rows. -/
theorem textOf_map_indentRow (single : ∀ found ∈ rows, '\n' ∉ found.toList) (front : String) :
    textOf (rows.map (indentRow front)) = indented front (textOf rows) := by
  apply String.toList_inj.mp
  rw [indented, String.toList_ofList]
  induction rows with
  | nil => rfl
  | cons found rest ih =>
      obtain ⟨first, later⟩ := List.forall_mem_cons.mp single
      rw [List.map_cons, toList_textOf_cons, toList_textOf_cons, indentFrom_row first,
        ih later]

/-- At any depth, items are laid out as they are printed, with the margin of the depth. -/
theorem textOf_rowsOf {items : List Item} (plain : arePlain items = true) (depth : Nat) :
    textOf (rowsOf depth items) = indented (margin depth) (print items) := by
  rw [print_eq, ← textOf_map_indentRow (newline_not_mem_rowsOf 0 items plain),
    ← rowsOf_add depth 0 items plain, Nat.add_zero]

end Depth

/-- Items are printed one after the other, and a block is printed as its opening line, its body
indented by two spaces, and its closing line.  What is printed of items does not depend on where
they stand but for the margin of the depth: each line that is not empty has two spaces more for
every block around it, and the empty lines stay empty. -/
theorem print_compositional (items others : List Item) {opening closing : String}
    {body : List Item} (plain : (Item.block opening body closing).isPlain = true) :
    print (items ++ others) = print items ++ print others ∧
      print [.block opening body closing] =
        opening ++ "\n" ++ indented "  " (print body) ++ (closing ++ "\n") ∧
      ∀ depth, textOf (rowsOf depth body) = indented (margin depth) (print body) := by
  obtain ⟨-, inside, -⟩ := isPlain_block.mp plain
  refine ⟨print_append items others, ?_, textOf_rowsOf inside⟩
  have edge : ∀ text, row 0 text = text := fun text => String.empty_append
  have rows : rowsOf 0 [.block opening body closing] = opening :: (rowsOf 1 body ++ [closing]) := by
    rw [rowsOf, rowsOf, List.append_nil, Item.rows, edge, edge]
  rw [print_eq, rows, textOf_cons, textOf_append, textOf_rowsOf inside, textOf_cons, textOf,
    List.map_nil, String.join_nil, String.append_empty, ← String.append_assoc]
  rfl

/-- A block with an empty line and a comment inside. -/
theorem print_compositional_of_block :
    let body := [.line "a();", .blank, .doc ["", "b */"]]
    (Item.block "\x7b" body "\x7d").isPlain = true ∧
      print [.block "\x7b" body "\x7d"] =
        "\x7b\n  a();\n\n  /**\n   *\n   * b * /\n   */\n\x7d\n" := by
  intro body
  have plain : (Item.block "\x7b" body "\x7d").isPlain = true := by decide
  have evaluated : "\x7b" ++ "\n" ++ indented "  " (print body) ++ ("\x7d" ++ "\n") =
      "\x7b\n  a();\n\n  /**\n   *\n   * b * /\n   */\n\x7d\n" := by
    decide +kernel
  exact ⟨plain, (print_compositional [] [] plain).2.1.trans evaluated⟩

/-! ## Code in normal form -/

section Code

variable {text : String}

theorem tidy_idem (text : String) : Text.tidy (Text.tidy text) = Text.tidy text := by
  apply String.toList_inj.mp
  rw [Text.tidy, Text.toList_overChars, Text.toList_overChars, Text.tidyChars_idem]

/-- The normal form of code: tidied, and without its common indentation. -/
def normalForm (text : String) : String :=
  Text.dedent (Text.tidy text)

theorem normalForm_idem (text : String) : normalForm (normalForm text) = normalForm text := by
  apply String.toList_inj.mp
  simp only [normalForm, Text.dedent, Text.tidy, Text.toList_overChars]
  obtain ⟨lines, areNormal, same⟩ := Text.exists_areNormal text.toList
  rw [same, areNormal.normal_eq]

theorem normalForm_blockInner (text : String) :
    normalForm (Text.blockInner text) = Text.blockInner text := by
  apply String.toList_inj.mp
  simp only [normalForm, Text.dedent, Text.tidy, Text.blockInner, Text.toList_overChars]
  obtain ⟨lines, areNormal, same⟩ := Text.exists_areNormal_blockInner text.toList
  rw [same, areNormal.normal_eq]

/-- The rows of what stands in a block are its lines, moved in. -/
theorem rows_blockInner (depth : Nat) (text : String) :
    (Item.code (Text.blockInner text)).rows depth =
      (Text.lines (Text.blockInner text)).map (indentRow (margin depth)) := by
  have lines : codeLines (Text.blockInner text) = Text.lines (Text.blockInner text) :=
    congrArg Text.lines (normalForm_blockInner text)
  rw [rows_code, lines]

/-- Lines in normal form can be read behind a margin. -/
theorem isWhole_indentRow (depth : Nat) {line : String}
    (member : line ∈ Text.lines (Text.blockInner text)) :
    Text.IsWhole (indentRow (margin depth) line).toList := by
  obtain ⟨lines, areNormal, same⟩ := Text.exists_areNormal_blockInner text.toList
  rw [Text.lines, Text.blockInner, Text.toList_overChars, same, areNormal.lineChars_eq] at member
  obtain ⟨chars, inside, rfl⟩ := List.mem_map.mp member
  rw [indentRow]
  split
  · exact ⟨List.not_mem_nil, by simp⟩
  · rename_i filled
    rw [String.isEmpty_iff, String.ofList_eq_empty_iff] at filled
    refine Text.isWhole_of_trimmed (newline_not_mem_row depth ?_) ?_
    · rw [String.toList_ofList]
      exact areNormal.single chars inside
    rw [String.toList_append, String.toList_ofList]
    exact Text.trimEnd_append_of_trimmed _ filled (areNormal.trimmed inside)

end Code

/-- Tidying a text a second time changes nothing, and neither does bringing it to the normal form;
what stands in a block is in normal form.  So wherever the code of a block is laid out, its rows are
the lines of the block in their order, each with the margin of the depth before it unless it is
empty.  They are rows of the file, and are read from it as they are. -/
theorem block_lines_kept (text : String) :
    Text.tidy (Text.tidy text) = Text.tidy text ∧
      normalForm (normalForm text) = normalForm text ∧
      normalForm (Text.blockInner text) = Text.blockInner text ∧
      ∀ depth, let rows := (Text.lines (Text.blockInner text)).map (indentRow (margin depth))
        (Item.code (Text.blockInner text)).rows depth = rows ∧
          Text.lines (textOf rows) = rows ∧
          ∀ items, Within depth (.code (Text.blockInner text)) 0 items → ∃ above below,
            print items = textOf above ++ textOf rows ++ textOf below := by
  refine ⟨tidy_idem text, normalForm_idem text, normalForm_blockInner text, fun depth => ?_⟩
  intro rows
  have laidOut : (Item.code (Text.blockInner text)).rows depth = rows := rows_blockInner depth text
  refine ⟨laidOut, lines_textOf (List.forall_mem_map.mpr fun _ => isWhole_indentRow depth), ?_⟩
  intro items within
  rw [← laidOut]
  exact within.exists_textOf

/-- The line that is least indented decides how far the block of a branch is moved out. -/
theorem block_lines_kept_of_branch :
    let code := Text.blockInner "\x7b\r\n      if (a) \x7b\r\n\tb();\n\n\n    \x7d\n  \x7d"
    let items := [.block "function f() \x7b" [.line "c();", .code code] "\x7d"]
    let rows := ["       if (a) \x7b", "  b();", "", "     \x7d"]
    Within 1 (.code code) 0 items ∧ (Text.lines code).map (indentRow (margin 1)) = rows ∧
      ∃ above below, print items = textOf above ++ textOf rows ++ textOf below := by
  intro code items rows
  have within : Within 1 (.code code) 0 items :=
    .block List.mem_cons_self (.here (List.mem_cons_of_mem _ List.mem_cons_self))
  have evaluated : (Text.lines code).map (indentRow (margin 1)) = rows := by decide +kernel
  have placed := ((block_lines_kept _).2.2.2 1).2.2 items within
  rw [evaluated] at placed
  exact ⟨within, evaluated, placed⟩

end Output
end Hookify
