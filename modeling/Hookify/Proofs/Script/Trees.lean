import Hookify.Proofs.Script.Paths
import Hookify.Proofs.Script.Regular
import Hookify.Proofs.Script.Starts

namespace Hookify
namespace Script

open Std.Do Reader

set_option mvcgen.warning false

/-!
# Statements have regular trees

The statements of a script, and with them the tree of every text, whether it
can be read as a script or not.
-/

namespace Grammar

variable {grammar : Grammar}

/-! ## Declarations and control flow -/

@[spec]
theorem keeps_declarator (regular : grammar.Regular) :
    Keeps Sketch.Regular (declarator grammar) := by
  mvcgen [declarator] with grind

@[spec]
theorem keeps_declarators (regular : grammar.Regular) : Keeps AllRegular (declarators grammar) := by
  mvcgen [declarators] with grind

@[spec]
theorem keeps_declaration (regular : grammar.Regular) :
    Keeps Sketch.Regular (declaration grammar) := by
  mvcgen [declaration] with grind

@[spec]
theorem keeps_atDeclaration : KeepsCursor atDeclaration := by
  mvcgen [atDeclaration]

@[spec]
theorem keeps_condition (regular : grammar.Regular) : Keeps Sketch.Regular (condition grammar) := by
  mvcgen [condition] with grind

@[spec]
theorem keeps_ifStatement (regular : grammar.Regular) :
    Keeps Sketch.Regular (ifStatement grammar) := by
  mvcgen [ifStatement] with grind

@[spec]
theorem keeps_forInTail (regular : grammar.Regular) (start : Nat) {left : List Sketch}
    (parts : AllRegular left) :
    Keeps Sketch.Regular (forInTail grammar start left) := by
  mvcgen [forInTail] with grind

@[spec]
theorem keeps_atLoopOperator : KeepsCursor atLoopOperator := by
  mvcgen [atLoopOperator]

@[spec]
theorem keeps_clause (regular : grammar.Regular) (field : Field) :
    Keeps AllRegular (clause grammar field) := by
  mvcgen [clause] with grind

@[spec]
theorem keeps_forTail (regular : grammar.Regular) (start : Nat) {initializer : List Sketch}
    (parts : AllRegular initializer) :
    Keeps Sketch.Regular (forTail grammar start initializer) := by
  mvcgen [forTail] with grind

/-- The name that a loop runs over stands on the left of the loop. -/
theorem Sketch.Regular.onLeft {declared : Sketch} (regular : declared.Regular) :
    AllRegular (declared.children.map fun child =>
      if child.field == some .name then child.as .left else child) := by
  intro renamed member
  obtain ⟨child, inside, rfl⟩ := List.mem_map.mp member
  have := (Sketch.regular_iff.mp regular).2.2 child inside
  grind

@[spec]
theorem keeps_forStatement (regular : grammar.Regular) :
    Keeps Sketch.Regular (forStatement grammar) := by
  mvcgen [forStatement]
  all_goals first
    | exact fun _ _ => Sketch.Regular.onLeft (by grind)
    | grind

@[spec]
theorem keeps_whileStatement (regular : grammar.Regular) :
    Keeps Sketch.Regular (whileStatement grammar) := by
  mvcgen [whileStatement] with grind

@[spec]
theorem keeps_doStatement (regular : grammar.Regular) :
    Keeps Sketch.Regular (doStatement grammar) := by
  mvcgen [doStatement] with grind

@[spec]
theorem keeps_caseBody (regular : grammar.Regular) : Keeps AllRegular (caseBody grammar) := by
  mvcgen [caseBody] with grind

@[spec]
theorem keeps_switchCase (regular : grammar.Regular) :
    Keeps Sketch.Regular (switchCase grammar) := by
  mvcgen [switchCase] with grind

@[spec]
theorem keeps_switchStatement (regular : grammar.Regular) :
    Keeps Sketch.Regular (switchStatement grammar) := by
  mvcgen [switchStatement] with grind

@[spec]
theorem keeps_tryStatement (regular : grammar.Regular) :
    Keeps Sketch.Regular (tryStatement grammar) := by
  mvcgen [tryStatement] with grind

@[spec]
theorem keeps_withStatement (regular : grammar.Regular) :
    Keeps Sketch.Regular (withStatement grammar) := by
  mvcgen [withStatement] with grind

@[spec]
theorem keeps_jump {kind : Kind} (free : kind.IsFree) : Keeps Sketch.Regular (jump kind) := by
  mvcgen [jump] with grind

@[spec]
theorem keeps_returnStatement (regular : grammar.Regular) :
    Keeps Sketch.Regular (returnStatement grammar) := by
  mvcgen [returnStatement] with grind

@[spec]
theorem keeps_throwStatement (regular : grammar.Regular) :
    Keeps Sketch.Regular (throwStatement grammar) := by
  mvcgen [throwStatement] with grind

/-! ## Modules -/

@[spec]
theorem keeps_moduleName : Keeps Sketch.Regular moduleName := by
  mvcgen [moduleName] with grind

@[spec]
theorem keeps_specifier {kind : Kind} (free : kind.IsFree) :
    Keeps Sketch.Regular (specifier kind) := by
  mvcgen [specifier] with grind

@[spec]
theorem keeps_namespaceOf {kind : Kind} (free : kind.IsFree) :
    Keeps Sketch.Regular (namespaceOf kind) := by
  mvcgen [namespaceOf] with grind

@[spec]
theorem keeps_specifiers {clause item : Kind} (clauseFree : clause.IsFree)
    (itemFree : item.IsFree) :
    Keeps Sketch.Regular (specifiers grammar clause item) := by
  mvcgen [specifiers] with grind

@[spec]
theorem keeps_importClause : Keeps Sketch.Regular (importClause grammar) := by
  mvcgen [importClause] with grind

@[spec]
theorem keeps_importAttributes (regular : grammar.Regular) :
    Keeps AllRegular (importAttributes grammar) := by
  mvcgen [importAttributes] with grind

@[spec]
theorem keeps_importStatement (regular : grammar.Regular) :
    Keeps Sketch.Regular (importStatement grammar) := by
  mvcgen [importStatement] with grind

@[spec]
theorem keeps_exportSource (regular : grammar.Regular) :
    Keeps AllRegular (exportSource grammar) := by
  mvcgen [exportSource] with grind

@[spec]
theorem keeps_exportDefault (regular : grammar.Regular) (start : Nat) :
    Keeps Sketch.Regular (exportDefault grammar start) := by
  mvcgen [exportDefault] with grind

@[spec]
theorem keeps_exportStatement (regular : grammar.Regular) :
    Keeps Sketch.Regular (exportStatement grammar) := by
  mvcgen [exportStatement] with grind

/-! ## The choice of a statement -/

@[spec]
theorem keeps_expressionStatement (regular : grammar.Regular) :
    Keeps Sketch.Regular (expressionStatement grammar) := by
  refine keeps_of_ok (keeps_expressionOf regular) fun cursor inner behind reads isRegular => ?_
  have starts : inner.start = cursor.start := startsHere_expressionOf cursor inner behind reads
  have fits : Fits .expressionStatement ([inner].map Sketch.part) := trivial
  mvcgen with grind

@[spec]
theorem keeps_nameStatement (regular : grammar.Regular) :
    Keeps Sketch.Regular (nameStatement grammar) := by
  mvcgen [nameStatement] with grind

@[spec]
theorem keeps_wordStatement (regular : grammar.Regular) (letters : List Char) :
    Keeps Sketch.Regular (wordStatement grammar letters) := by
  mvcgen [wordStatement] with grind

@[spec]
theorem keeps_statementOf (regular : grammar.Regular) :
    Keeps Sketch.Regular (statementOf grammar) := by
  mvcgen [statementOf] with grind

/-! ## Lists of statements -/

/-- A comment of a page is as long as its opening at least. -/
theorem htmlComment_hasWidth {chars : List Char} (begins : beginsHtmlComment chars = true) :
    0 < (chars.takeWhile (! isLineEnd ·)).length := by
  rw [beginsHtmlComment, Bool.or_eq_true] at begins
  rcases begins with opening | closing
  · obtain ⟨rest, rfl⟩ := List.isPrefixOf_iff_prefix.mp opening
    exact Nat.succ_pos _
  · obtain ⟨rest, rfl⟩ := List.isPrefixOf_iff_prefix.mp closing
    exact Nat.succ_pos _

@[spec]
theorem keeps_passHtmlComments (budget : Nat) : KeepsCursor (passHtmlComments budget) := by
  induction budget with
  | zero => mvcgen [passHtmlComments]
  | succ budget ih =>
      mvcgen [passHtmlComments, ih]
      rename_i cursor regular begins _ _
      have width := htmlComment_hasWidth begins
      exact .resume ⟨regular.nodes, List.forall_mem_cons.mpr
        ⟨Nat.lt_add_of_pos_right width, regular.remarks⟩⟩

@[spec]
theorem keeps_errorAt {before failed : Cursor} (regular : before.Regular)
    (failedRegular : failed.Regular) : Keeps Sketch.Regular (errorAt before failed) := by
  mvcgen [errorAt] with grind [List.takeWhile_subset]

@[spec]
theorem keeps_nextStatement (regular : grammar.Regular) (untilBrace : Bool) :
    Keeps (fun found => ∀ statement ∈ found, statement.Regular)
      (nextStatement grammar untilBrace) := by
  refine keeps_bind (keeps_passHtmlComments _) fun _ _ => keeps_get fun cursor isRegular => ?_
  refine keeps_ite (keeps_pure (by grind)) ?_
  -- the statement is tried at the cursor itself, so its outcome is what its reader keeps
  cases tried : grammar.statement cursor with
  | ok statement next =>
      have := finds_of_ok regular.statement isRegular tried
      mvcgen
      grind
  | error _ failed =>
      have := regular_of_error regular.statement isRegular tried
      mvcgen with grind

@[spec]
theorem keeps_statementsOf (regular : grammar.Regular) (untilBrace : Bool) :
    Keeps AllRegular (statementsOf grammar untilBrace) := by
  mvcgen [statementsOf] with grind

end Grammar

/-- Whatever the depth, a grammar finds regular nodes. -/
theorem regular_grammarOf (budget depth : Nat) : (grammarOf budget depth).Regular := by
  induction depth with
  | zero => exact Grammar.regular_empty budget
  | succ depth ih =>
      exact {
        expression := Grammar.keeps_expressionOf ih
        assignment := Grammar.keeps_assignmentOf ih
        unary := Grammar.keeps_unaryOf ih
        binary := Grammar.keeps_binaryOf ih
        element := Grammar.keeps_markup ih
        statement := Grammar.keeps_statementOf ih
        statements := Grammar.keeps_statementsOf ih true }

theorem keeps_hashBang : Keeps AllRegular hashBang := by
  mvcgen [hashBang] with grind

theorem keeps_script {grammar : Grammar} (regular : grammar.Regular) :
    Keeps AllRegular (script grammar) := by
  mvcgen [script, keeps_hashBang] with grind

theorem regular_ofChars (chars : List Char) : (Cursor.ofChars chars).Regular :=
  ⟨fun _ absent => absurd absent List.not_mem_nil, fun _ absent => absurd absent List.not_mem_nil⟩

/-! ## Finished trees -/

namespace Node

/-- The part that a node plays in its parent, with its kind. -/
def part (node : Node) : Part :=
  (node.kind, node.field)

/-- All nodes of a tree fit. -/
inductive Regular : Node → Prop where
  | node {node : Node} (fits : Fits node.kind (node.children.map part))
      (inside : ∀ child ∈ node.children, Regular child) : Regular node

theorem Regular.fits {node : Node} (regular : node.Regular) :
    Fits node.kind (node.children.map part) := by
  cases regular
  assumption

theorem Regular.of_mem_children {node child : Node} (regular : node.Regular)
    (member : child ∈ node.children) : child.Regular := by
  cases regular with
  | node fits inside => exact inside child member

end Node

/-- Comments have no say in whether a node fits. -/
theorem fits_filter_iff {kind : Kind} {parts : List Part} :
    Fits kind (parts.filter fun part => ! isRemark part) ↔ Fits kind parts := by
  have same : ∀ field : Field, AtMostOne field (parts.filter fun part => ! isRemark part) ↔
      AtMostOne field parts := by
    intro field
    rw [AtMostOne, AtMostOne, List.filter_filter]
    suffices (fun part : Part => part.2 == some field && ! isRemark part) =
        fun part => part.2 == some field by rw [this]
    funext part
    grind [isRemark]
  have named : fieldsOf (parts.filter fun part => ! isRemark part) = fieldsOf parts := by
    rw [fieldsOf, fieldsOf, List.filterMap_filter]
    refine List.filterMap_congr fun part _ => ?_
    grind [isRemark]
  have filtered : (∀ part ∈ parts.filter fun part => ! isRemark part, isRemark part = true) ↔
      ∀ part ∈ parts, isRemark part = true := by
    refine ⟨fun remarks part member => ?_,
      fun remarks part member => remarks part (List.mem_of_mem_filter member)⟩
    by_contra other
    exact other (remarks part (List.mem_filter.mpr ⟨member, by simpa using other⟩))
  rw [Fits.eq_def, Fits.eq_def]
  split
  · rw [same]
    refine and_congr_right fun _ => and_congr ?_ ?_
    · refine ⟨fun ordered part member isMember => ?_,
        fun ordered part member => ordered part (List.mem_of_mem_filter member)⟩
      refine ordered part (List.mem_filter.mpr ⟨member, ?_⟩) isMember
      grind [isRemark]
    · refine ⟨fun listed part member isList => ?_,
        fun listed part member => listed part (List.mem_of_mem_filter member)⟩
      refine listed part (List.mem_filter.mpr ⟨member, ?_⟩) isList
      grind [isRemark]
  · rw [named]
  · exact filtered
  · exact filtered
  · exact Iff.rfl

section Finished

variable {source : Source}

theorem nodesOf_append (first second : List (NodePart Node)) :
    nodesOf (first ++ second) = nodesOf first ++ nodesOf second :=
  List.filterMap_append

theorem nodesOf_textParts (start stop : Nat) : nodesOf (source.textParts start stop) = [] := by
  rw [Source.textParts]
  split <;> rfl

theorem nodesOf_partsAround (stop : Nat) (remarks : List Remark) : ∀ start,
    nodesOf (source.partsAround start stop remarks) = remarks.map source.commentNode := by
  induction remarks with
  | nil => exact fun start => nodesOf_textParts start stop
  | cons remark rest ih =>
      intro start
      rw [Source.partsAround, nodesOf_append, nodesOf_textParts, List.nil_append, List.map_cons,
        ← ih remark.stop]
      rfl

theorem mem_gapParts {start stop : Nat} {node : Node}
    (member : node ∈ nodesOf (source.gapParts start stop)) :
    ∃ remark, node = source.commentNode remark := by
  rw [Source.gapParts, nodesOf_partsAround] at member
  obtain ⟨remark, _, same⟩ := List.mem_map.mp member
  exact ⟨remark, same.symm⟩

theorem isRemark_commentNode (remark : Remark) :
    isRemark (source.commentNode remark).part = true := by
  rw [Source.commentNode, Node.part]
  split <;> rfl

theorem filter_gapParts (start stop : Nat) :
    (((nodesOf (source.gapParts start stop)).map Node.part).filter fun part => ! isRemark part) =
      [] := by
  rw [List.filter_eq_nil_iff]
  intro part member
  obtain ⟨node, inside, rfl⟩ := List.mem_map.mp member
  obtain ⟨remark, rfl⟩ := mem_gapParts inside
  rw [isRemark_commentNode]
  decide

theorem part_toNode (sketch : Sketch) : (sketch.toNode source).part = sketch.part := by
  cases sketch
  rw [Sketch.toNode]
  rfl

/-- Between the children of a sketch, its node has comments only. -/
theorem filter_partsOf (stop : Nat) (sketches : List Sketch) : ∀ position,
    (((nodesOf (partsOf source position stop sketches)).map Node.part).filter
        fun part => ! isRemark part) =
      (sketches.map Sketch.part).filter fun part => ! isRemark part := by
  induction sketches with
  | nil => exact fun position => by rw [partsOf, filter_gapParts, List.map_nil, List.filter_nil]
  | cons sketch rest ih =>
      intro position
      rw [partsOf, nodesOf_append, nodesOf_cons_child, List.map_append, List.filter_append,
        filter_gapParts, List.nil_append, List.map_cons, List.map_cons, part_toNode,
        List.filter_cons, List.filter_cons, ih]

theorem mem_partsOf {stop : Nat} {sketches : List Sketch} {node : Node} : ∀ {position},
    node ∈ nodesOf (partsOf source position stop sketches) →
      (∃ remark, node = source.commentNode remark) ∨
        ∃ sketch ∈ sketches, node = sketch.toNode source := by
  induction sketches with
  | nil => exact fun member => .inl (mem_gapParts (by rwa [partsOf] at member))
  | cons sketch rest ih =>
      intro position member
      rw [partsOf, nodesOf_append, nodesOf_cons_child] at member
      rcases List.mem_append.mp member with before | after
      · exact .inl (mem_gapParts before)
      · rcases List.mem_cons.mp after with same | later
        · exact .inr ⟨sketch, List.mem_cons_self, same⟩
        · rcases ih later with isRemark | ⟨other, inside, same⟩
          · exact .inl isRemark
          · exact .inr ⟨other, List.mem_cons_of_mem sketch inside, same⟩

theorem regular_commentNode (remark : Remark) : (source.commentNode remark).Regular := by
  have alone : (source.commentNode remark).children = [] := nodesOf_textParts _ _
  refine .node ?_ fun child member => ?_
  · rw [alone]
    exact fits_nil _
  · rw [alone] at member
    exact absurd member List.not_mem_nil

theorem Sketch.Regular.toNode {sketch : Sketch} (regular : sketch.Regular) :
    (sketch.toNode source).Regular := by
  induction regular with
  | @node kind field start stop children fits leads inside ih =>
      rw [Sketch.toNode]
      refine .node ?_ fun child member => ?_
      · have filtered := fits_filter_iff.mpr fits
        rw [← @filter_partsOf source stop children start] at filtered
        exact fits_filter_iff.mp filtered
      · rcases mem_partsOf member with ⟨remark, rfl⟩ | ⟨sketch, inside, rfl⟩
        · exact regular_commentNode remark
        · exact ih sketch inside

end Finished

/-- The tree of every text is the finished node of a regular sketch. -/
theorem exists_regular_sketch (text : String) : ∃ (sketch : Sketch) (source : Source),
    sketch.Regular ∧ HaveWidth source.remarks ∧ parse text = sketch.toNode source := by
  have root : ∀ {statements : List Sketch} {stop : Nat}, AllRegular statements →
      (⟨.program, none, 0, stop, statements⟩ : Sketch).Regular :=
    fun regular => .node trivial (.of_ne (by decide) _ _) regular
  have turned : ∀ {cursor : Cursor}, cursor.Regular → HaveWidth cursor.remarks.reverse :=
    fun regular remark member => regular.remarks remark (List.mem_reverse.mp member)
  have keeps := keeps_script (regular_grammarOf (text.toList.length + 1) (text.toList.length + 2))
  rw [parse]
  cases reads : script (grammarOf (text.toList.length + 1) (text.toList.length + 2))
      (Cursor.ofChars text.toList) with
  | ok statements cursor =>
      obtain ⟨regular, behind⟩ := finds_of_ok keeps (regular_ofChars _) reads
      exact ⟨_, _, root regular, turned behind, rfl⟩
  | error _ failed =>
      have behind := regular_of_error keeps (regular_ofChars _) reads
      exact ⟨_, _, root fun _ absent => absurd absent List.not_mem_nil, turned behind, rfl⟩

/-- The tree of every text is regular. -/
theorem regular_parse (text : String) : (parse text).Regular := by
  obtain ⟨sketch, source, regular, _, same⟩ := exists_regular_sketch text
  rw [same]
  exact regular.toNode

/-! ## Places in regular trees -/

theorem Place.map_part_children (place : Place) :
    place.children.map (·.node.part) = place.node.children.map Node.part := by
  conv_rhs => rw [← place.node.children.zipIdx_map_fst 0]
  rw [Place.children, List.map_map, List.map_map]
  rfl

/-- A child that alone has a name is found under that name. -/
theorem Place.child?_eq_some {place child : Place} {field : Field}
    (unique : AtMostOne field (place.node.children.map Node.part))
    (member : child ∈ place.children) (plays : child.field = some field) :
    place.child? field = some child := by
  have alone : (place.children.filter (·.field == some field)).length ≤ 1 := by
    rw [← place.map_part_children, AtMostOne, List.filter_map, List.length_map] at unique
    exact unique
  have found : child ∈ place.children.filter (·.field == some field) :=
    List.mem_filter.mpr ⟨member, beq_iff_eq.mpr plays⟩
  rw [Place.child?, ← List.head?_filter]
  cases filtered : place.children.filter (·.field == some field) with
  | nil =>
      rw [filtered] at found
      exact absurd found List.not_mem_nil
  | cons only others =>
      rw [filtered] at alone found
      rw [List.length_eq_zero_iff.mp (Nat.le_zero.mp (Nat.le_of_succ_le_succ alone))] at found
      rw [List.head?_cons, List.mem_singleton.mp found]

/-- A member that has an object has a property behind it. -/
theorem Place.exists_property {member object : Place} (regular : member.node.Regular)
    (isMember : member.kind = .memberExpression) (inside : object ∈ member.children)
    (plays : object.field = some .object) :
    member.child? .object = some object ∧ ∃ property,
      member.child? .property = some property ∧ [object, property].Sublist member.children := by
  have fits := regular.fits
  rw [show member.node.kind = .memberExpression from isMember, Fits] at fits
  have named : member.children.filterMap Place.field =
      fieldsOf (member.node.children.map Node.part) := by
    rw [fieldsOf, ← member.map_part_children, List.filterMap_map]
    rfl
  have some : fieldsOf (member.node.children.map Node.part) ≠ [] := by
    intro none
    have absent := List.filterMap_eq_nil_iff.mp (named.trans none) object inside
    rw [plays] at absent
    cases absent
  replace fits := fits.resolve_left some
  have unique : ∀ field, AtMostOne field (member.node.children.map Node.part) := fun field =>
    .of_fieldsOf (by rw [fits]; cases field <;> decide)
  -- in front of the object and between it and the property, no child has a name
  obtain ⟨before, first, rest, whole, _, isFirst, later⟩ :=
    List.filterMap_eq_cons_iff.mp (named.trans fits)
  obtain ⟨between, property, after, split, _, isProperty, _⟩ :=
    List.filterMap_eq_cons_iff.mp later
  have order : [first, property].Sublist member.children := by
    rw [whole, split]
    exact .trans (.cons_cons _ (List.singleton_sublist.mpr (by simp)))
      (List.sublist_append_right before _)
  have found := Place.child?_eq_some (unique .object) inside plays
  have same := Place.child?_eq_some (unique .object)
    (order.subset List.mem_cons_self) isFirst
  obtain rfl := Option.some.inj (found.symm.trans same)
  exact ⟨found, property, Place.child?_eq_some (unique .property)
    (order.subset (List.mem_cons_of_mem _ List.mem_cons_self)) isProperty, order⟩

/-- Every node inside a regular tree is regular. -/
theorem Place.regular_of_mem_walk {outer inner : Place} (regular : outer.node.Regular)
    (inside : inner ∈ outer.walk) : inner.node.Regular :=
  Place.holds_of_mem_walk (fun _ _ regular member => regular.of_mem_children member) regular inside

/-!
## What statements begin with

A statement that is an expression begins with it: in the tree of a script, no
text and no comment stands before the expression, and the statement and the
expression start on the same line.
-/

/-- A node begins with its child, on the line on which the child starts. -/
structure Node.BeginsWith (node child : Node) : Prop where
  first : ∃ behind, node.parts = .child child :: behind
  sameMargin : child.margin = node.margin

/-- A node of a finished tree: a comment, or what a regular sketch has become. -/
inductive IsFinished (source : Source) : Node → Prop where
  | comment (remark : Remark) : IsFinished source (source.commentNode remark)
  | sketch {sketch : Sketch} (regular : sketch.Regular) : IsFinished source (sketch.toNode source)

section Finished

variable {source : Source} {node child : Node}

theorem IsFinished.of_mem_children (finished : IsFinished source node)
    (member : child ∈ node.children) : IsFinished source child := by
  cases finished with
  | comment remark =>
      have none : (source.commentNode remark).children = [] := nodesOf_textParts _ _
      rw [none] at member
      exact absurd member List.not_mem_nil
  | @sketch sketch regular =>
      obtain ⟨kind, field, start, stop, children⟩ := sketch
      rw [Sketch.toNode] at member
      rcases mem_partsOf member with ⟨remark, rfl⟩ | ⟨inner, among, rfl⟩
      · exact .comment remark
      · exact .sketch ((Sketch.regular_iff.mp regular).2.2 inner among)

/-- Comments that have some width leave no room between a node and a part that starts with it. -/
theorem gapParts_self (haveWidth : HaveWidth source.remarks) (position : Nat) :
    source.gapParts position position = [] := by
  have none : source.remarks.filter (fun remark =>
      position ≤ remark.start && remark.stop ≤ position) = [] := by
    refine List.filter_eq_nil_iff.mpr fun remark member => ?_
    have width : remark.start < remark.stop := haveWidth remark member
    simp only [Bool.and_eq_true, decide_eq_true_eq]
    omega
  rw [Source.gapParts, none, Source.partsAround, Source.textParts, if_neg (Nat.lt_irrefl _)]

theorem partsOf_cons (haveWidth : HaveWidth source.remarks) (stop : Nat) (first : Sketch)
    (others : List Sketch) : partsOf source first.start stop (first :: others) =
      .child (first.toNode source) :: partsOf source first.stop stop others := by
  rw [partsOf, gapParts_self haveWidth, List.nil_append]

theorem margin_toNode (sketch : Sketch) :
    (sketch.toNode source).margin = source.marginAt sketch.start := by
  cases sketch
  rw [Sketch.toNode]

theorem IsFinished.beginsWith (haveWidth : HaveWidth source.remarks)
    (finished : IsFinished source node) (kind : node.kind = .expressionStatement)
    (member : child ∈ node.children) (isPart : isRemark child.part = false) :
    node.BeginsWith child := by
  cases finished with
  | comment remark =>
      have none : (source.commentNode remark).children = [] := nodesOf_textParts _ _
      rw [none] at member
      exact absurd member List.not_mem_nil
  | @sketch sketch regular =>
      obtain ⟨_, field, start, stop, children⟩ := sketch
      rw [Sketch.toNode] at kind member ⊢
      rcases mem_partsOf member with ⟨remark, rfl⟩ | ⟨inner, among, rfl⟩
      · rw [isRemark_commentNode] at isPart
        cases isPart
      · rcases (Sketch.regular_iff.mp regular).2.1 kind with rfl | ⟨only, rfl, starts⟩
        · exact absurd among List.not_mem_nil
        · obtain rfl := List.mem_singleton.mp among
          obtain rfl : inner.start = start := starts
          exact ⟨⟨_, partsOf_cons haveWidth stop inner []⟩, margin_toNode inner⟩

theorem IsFinished.of_mem_walk {outer inner : Place} (finished : IsFinished source outer.node)
    (inside : inner ∈ outer.walk) : IsFinished source inner.node :=
  Place.holds_of_mem_walk (fun _ _ finished member => finished.of_mem_children member) finished
    inside

end Finished

/-- In the tree of a text, a statement that is an expression begins with it. -/
theorem Place.beginsWith_of_mem_children {text : String} {statement child : Place}
    (inside : statement ∈ (Place.ofRoot (parse text)).walk)
    (kind : statement.kind = .expressionStatement) (member : child ∈ statement.children)
    (isPart : isRemark child.node.part = false) : statement.node.BeginsWith child.node := by
  obtain ⟨sketch, source, regular, haveWidth, same⟩ := exists_regular_sketch text
  have root : IsFinished source (Place.ofRoot (parse text)).node := by
    rw [Place.ofRoot, same]
    exact .sketch regular
  obtain ⟨index, found, _⟩ := Place.mem_children.mp member
  exact (root.of_mem_walk inside).beginsWith haveWidth kind (List.mem_of_getElem? found) isPart

end Script
end Hookify
