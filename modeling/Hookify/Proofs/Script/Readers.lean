import Hookify.Script.Parse
import Mathlib

namespace Hookify
namespace Script

open Std.Do

set_option mvcgen.warning false

/-!
# What readers keep

Calls and members stand in a chain because of the parts that their children
play: a call has one function, a member has one object and behind it one
property, and a member below a call is the function that is called.  What a call
passes to its function is a list of arguments or a template.  A literal has
nothing inside that could be replaced.  A statement that is an expression starts
where the expression does.  A sketch is regular if that is so for each node in
it.

A reader takes regular sketches to regular sketches.  It also keeps those at the
cursor regular, whether it succeeds or gives up, since an error node is made of
what had been read before.  The comments that it passes all have some width, so
that none is found between a node and its first child, if both start together.
-/

/-! ## Regular sketches -/

/-- The part that a node plays, with its kind. -/
abbrev Part := Kind × Option Field

/-- At most one of the parts has the name. -/
def AtMostOne (field : Field) (parts : List Part) : Prop :=
  (parts.filter (·.2 == some field)).length ≤ 1

/-- The names of the parts that have one, in their order. -/
def fieldsOf (parts : List Part) : List Field :=
  parts.filterMap Prod.snd

/-- The part that comments play in the nodes around them. -/
def isRemark (part : Part) : Bool :=
  part == (.comment, none) || part == (.htmlComment, none)

theorem AtMostOne.of_fieldsOf {parts : List Part} {field : Field}
    (unique : (fieldsOf parts).count field ≤ 1) : AtMostOne field parts := by
  have counted : (fieldsOf parts).count field = parts.countP (·.2 == some field) := by
    rw [fieldsOf, List.count, List.countP_filterMap]
    refine List.countP_congr fun part _ => ?_
    cases part.2 <;> simp
  rwa [AtMostOne, ← List.countP_eq_length_filter, ← counted]

/-- What the parts of a node have to be, if the node belongs to a chain or is a literal. -/
def Fits (kind : Kind) (parts : List Part) : Prop :=
  match kind with
  | .callExpression =>
      AtMostOne .function parts ∧
        (∀ part ∈ parts, part.1 = .memberExpression → part.2 = some .function) ∧
        ∀ part ∈ parts, part.2 = some .arguments → part.1 = .arguments ∨ part.1 = .templateString
  | .memberExpression => fieldsOf parts = [] ∨ fieldsOf parts = [.object, .property]
  | .string | .htmlComment => ∀ part ∈ parts, isRemark part = true
  | _ => True

/-- Nodes of this kind may have any parts. -/
def Kind.IsFree (kind : Kind) : Prop :=
  kind ≠ .callExpression ∧ kind ≠ .memberExpression ∧ kind ≠ .string ∧ kind ≠ .htmlComment ∧
    kind ≠ .expressionStatement

instance (kind : Kind) : Decidable kind.IsFree :=
  inferInstanceAs (Decidable (kind ≠ .callExpression ∧ kind ≠ .memberExpression ∧
    kind ≠ .string ∧ kind ≠ .htmlComment ∧ kind ≠ .expressionStatement))

/-- A statement that is an expression has no other part, and starts with it. -/
def Leads (kind : Kind) (start : Nat) (children : List Sketch) : Prop :=
  kind = .expressionStatement → children = [] ∨ ∃ inner, children = [inner] ∧ inner.start = start

namespace Sketch

/-- The part that a sketch plays. -/
def part (sketch : Sketch) : Part :=
  (sketch.kind, sketch.field)

/-- All nodes of a sketch fit. -/
inductive Regular : Sketch → Prop where
  | node {kind : Kind} {field : Option Field} {start stop : Nat} {children : List Sketch}
      (fits : Fits kind (children.map part)) (leads : Leads kind start children)
      (inside : ∀ child ∈ children, Regular child) :
      Regular ⟨kind, field, start, stop, children⟩

end Sketch

section Sketches

variable {kind : Kind} {sketch : Sketch} {sketches : List Sketch}

@[grind .]
theorem Kind.IsFree.fits (free : kind.IsFree) (parts : List Part) : Fits kind parts := by
  rw [Fits.eq_def]
  split
  · exact absurd rfl free.1
  · exact absurd rfl free.2.1
  · exact absurd rfl free.2.2.1
  · exact absurd rfl free.2.2.2.1
  · trivial

@[grind .]
theorem Leads.of_ne (other : kind ≠ .expressionStatement) (start : Nat) (children : List Sketch) :
    Leads kind start children :=
  fun same => absurd same other

theorem Kind.IsFree.leads (free : kind.IsFree) (start : Nat) (children : List Sketch) :
    Leads kind start children :=
  .of_ne free.2.2.2.2 start children

@[grind .]
theorem Leads.single {start : Nat} (inner : Sketch) (begins : inner.start = start) :
    Leads kind start [inner] :=
  fun _ => .inr ⟨inner, rfl, begins⟩

/-- A node without parts fits, whatever its kind is. -/
theorem fits_nil (kind : Kind) : Fits kind [] := by
  rw [Fits.eq_def]
  split
  · simp [AtMostOne]
  · exact .inl rfl
  · simp
  · simp
  · trivial

theorem Sketch.regular_iff :
    sketch.Regular ↔ Fits sketch.kind (sketch.children.map Sketch.part) ∧
      Leads sketch.kind sketch.start sketch.children ∧
        ∀ child ∈ sketch.children, child.Regular := by
  constructor
  · rintro ⟨fits, leads, inside⟩
    exact ⟨fits, leads, inside⟩
  · cases sketch
    rintro ⟨fits, leads, inside⟩
    exact .node fits leads inside

@[simp, grind =]
theorem Sketch.regular_as (field : Field) : (sketch.as field).Regular ↔ sketch.Regular := by
  rw [Sketch.regular_iff, Sketch.regular_iff]
  rfl

@[simp, grind =]
theorem Sketch.part_as (field : Field) : (sketch.as field).part = (sketch.kind, some field) := rfl

/-- A node may be taken for one that belongs to no chain. -/
@[grind .]
theorem Sketch.Regular.withKind (regular : sketch.Regular) (free : kind.IsFree) :
    ({ sketch with kind := kind } : Sketch).Regular :=
  .node (free.fits _) (free.leads _ _) (Sketch.regular_iff.mp regular).2.2

theorem Sketch.Regular.leaf (kind : Kind) (field : Option Field) (start stop : Nat) :
    (⟨kind, field, start, stop, []⟩ : Sketch).Regular :=
  .node (fits_nil kind) (fun _ => .inl rfl) fun _ absent => absurd absent List.not_mem_nil

@[grind .]
theorem Fits.call (function arguments : Sketch)
    (list : arguments.kind = .arguments ∨ arguments.kind = .templateString) :
    Fits .callExpression ([function.as .function, arguments.as .arguments].map Sketch.part) := by
  rcases list with list | list <;> simp [Fits, AtMostOne, list]

@[grind .]
theorem Fits.optionalCall {chain : Sketch} (function arguments : Sketch)
    (mark : chain.part = (.optionalChain, none))
    (list : arguments.kind = .arguments ∨ arguments.kind = .templateString) :
    Fits .callExpression
      ([function.as .function, chain, arguments.as .arguments].map Sketch.part) := by
  rcases list with list | list <;> simp [Fits, AtMostOne, list, mark]

@[grind .]
theorem Fits.member (object property : Sketch) :
    Fits .memberExpression ([object.as .object, property.as .property].map Sketch.part) :=
  .inr rfl

@[grind .]
theorem Fits.optionalMember {chain : Sketch} (object property : Sketch)
    (mark : chain.part = (.optionalChain, none)) :
    Fits .memberExpression
      ([object.as .object, chain, property.as .property].map Sketch.part) := by
  simp [Fits, fieldsOf, mark]

mutual

/-- What is read as a pattern stays regular, since patterns belong to no chain. -/
@[grind .]
theorem Sketch.Regular.toPattern : ∀ {sketch : Sketch}, sketch.Regular → sketch.toPattern.Regular
  | ⟨kind, field, start, stop, children⟩, regular => by
      have inside := (Sketch.regular_iff.mp regular).2.2
      have patterns := regular_patternsOf inside
      have free : ∀ {kind : Kind} {field start stop} {parts : List Sketch}, kind.IsFree →
          (∀ part ∈ parts, part.Regular) → Sketch.Regular ⟨kind, field, start, stop, parts⟩ :=
        fun free regular => .node (free.fits _) (free.leads _ _) regular
      rw [Sketch.toPattern.eq_def]
      dsimp only
      split
      · exact free (by decide) patterns
      · exact free (by decide) patterns
      · exact free (by decide) patterns
      · exact free (by decide) patterns
      · exact free (by decide) inside
      · exact free (by decide) inside
      · exact regular

theorem regular_patternsOf : ∀ {sketches : List Sketch}, (∀ sketch ∈ sketches, sketch.Regular) →
    ∀ sketch ∈ patternsOf sketches, sketch.Regular
  | [], _ => fun _ absent => absurd absent List.not_mem_nil
  | first :: rest, regular => by
      intro sketch member
      rcases List.mem_cons.mp member with same | later
      · rw [same]
        exact (regular first List.mem_cons_self).toPattern
      · exact regular_patternsOf
          (fun other inside => regular other (List.mem_cons_of_mem first inside)) sketch later

end

/-- The parts of a list, read as patterns, make up a node that belongs to no chain. -/
@[grind .]
theorem Sketch.Regular.asPatterns (regular : sketch.Regular) (free : kind.IsFree) :
    ({ sketch with kind := kind, children := sketch.children.map Sketch.toPattern } :
      Sketch).Regular := by
  refine .node (free.fits _) (free.leads _ _) fun child member => ?_
  obtain ⟨part, inside, rfl⟩ := List.mem_map.mp member
  exact ((Sketch.regular_iff.mp regular).2.2 part inside).toPattern

end Sketches

/-! ## Comments -/

/-- The comment is not empty. -/
def Remark.HasWidth (remark : Remark) : Prop :=
  remark.start < remark.stop

/-- All of the comments have some width. -/
abbrev HaveWidth (remarks : List Remark) : Prop :=
  ∀ remark ∈ remarks, remark.HasWidth

/-- A comment that is under way began before the position. -/
def GapMode.StartsBefore (position : Nat) : GapMode → Prop
  | .space => True
  | .line start | .opening start | .block start _ => start < position

theorem GapMode.StartsBefore.haveWidth {position : Nat} {mode : GapMode}
    (before : mode.StartsBefore position) : HaveWidth (mode.remark? position).toList := by
  cases mode with
  | space => exact fun _ absent => absurd absent List.not_mem_nil
  | line start | opening start | block start afterStar =>
      exact List.forall_mem_singleton.mpr before

/-- The comments between two lexemes have some width. -/
theorem haveWidth_passGap {chars : List Char} {mode : GapMode} {remarks : List Remark}
    {position : Nat} (hasNewline : Bool) (before : mode.StartsBefore position)
    (haveWidth : HaveWidth remarks) :
    HaveWidth (passGap mode remarks hasNewline position chars).remarks := by
  induction chars generalizing mode remarks hasNewline position with
  | nil => exact List.forall_mem_append.mpr ⟨before.haveWidth, haveWidth⟩
  | cons c rest ih =>
      have next : position < position + 1 := Nat.lt_succ_self position
      cases mode with
      | space =>
          rw [passGap]
          split
          · exact ih _ next haveWidth
          · split
            · exact ih _ next haveWidth
            · split
              · exact ih _ trivial haveWidth
              · exact haveWidth
      | line start =>
          rw [passGap]
          split
          · exact ih _ trivial (List.forall_mem_cons.mpr ⟨before, haveWidth⟩)
          · exact ih _ (before.trans next) haveWidth
      | opening start => exact ih _ (before.trans next) haveWidth
      | block start afterStar =>
          rw [passGap]
          split
          · exact ih _ trivial (List.forall_mem_cons.mpr ⟨before.trans next, haveWidth⟩)
          · exact ih _ (before.trans next) haveWidth

/-! ## The cursor -/

namespace Cursor

/-- The nodes that have been read are regular, and the comments have some width. -/
structure Regular (cursor : Cursor) : Prop where
  nodes : ∀ node ∈ cursor.nodes, node.Regular
  remarks : HaveWidth cursor.remarks

variable {cursor : Cursor}

@[grind =]
theorem regular_iff : cursor.Regular ↔
    (∀ node ∈ cursor.nodes, node.Regular) ∧ HaveWidth cursor.remarks :=
  ⟨fun regular => ⟨regular.nodes, regular.remarks⟩, fun ⟨nodes, remarks⟩ => ⟨nodes, remarks⟩⟩

@[simp, grind =]
theorem nodes_resume (cursor : Cursor) : cursor.resume.nodes = cursor.nodes := rfl

@[simp, grind =]
theorem nodes_advance (cursor : Cursor) : cursor.advance.nodes = cursor.nodes := rfl

@[simp, grind =]
theorem nodes_take (length : Nat) : (cursor.take length).nodes = cursor.nodes := rfl

@[simp, grind =]
theorem nodes_takeHere (length : Nat) : (cursor.takeHere length).nodes = cursor.nodes := rfl

@[grind .]
theorem Regular.resume (regular : cursor.Regular) : cursor.resume.Regular :=
  ⟨regular.nodes, haveWidth_passGap false trivial regular.remarks⟩

@[grind .]
theorem Regular.advance (regular : cursor.Regular) : cursor.advance.Regular :=
  .resume ⟨regular.nodes, regular.remarks⟩

@[grind .]
theorem Regular.take (regular : cursor.Regular) (length : Nat) : (cursor.take length).Regular :=
  ⟨regular.nodes, regular.remarks⟩

@[grind .]
theorem Regular.takeHere (regular : cursor.Regular) (length : Nat) :
    (cursor.takeHere length).Regular :=
  ⟨regular.nodes, regular.remarks⟩

theorem Regular.withNode (regular : cursor.Regular) {node : Sketch} (isRegular : node.Regular) :
    (cursor.withNode node).Regular := by
  refine ⟨fun other member => ?_, regular.remarks⟩
  rcases List.mem_cons.mp member with same | earlier
  · exact same ▸ isRegular
  · exact regular.nodes other (List.dropWhile_subset _ earlier)

end Cursor

/-! ## Small readers -/

/-- What a reader finds has a property, and the cursor stays regular, also if the reader gives up. -/
abbrev Keeps {Result : Type} (finds : Result → Prop) (reader : Reader Result) : Prop :=
  ⦃fun cursor => ⌜cursor.Regular⌝⦄ reader
    ⦃post⟨fun found cursor => ⌜finds found ∧ cursor.Regular⌝, fun _ cursor => ⌜cursor.Regular⌝⟩⦄

/-- All of the sketches are regular. -/
abbrev AllRegular (sketches : List Sketch) : Prop :=
  ∀ sketch ∈ sketches, sketch.Regular

/-- Whatever a reader finds, the cursor stays regular. -/
abbrev KeepsCursor {Result : Type} (reader : Reader Result) : Prop :=
  Keeps (fun _ => True) reader

/-- What a reader of one node finds: a regular sketch that plays no part yet. -/
structure Sketch.IsNode (kind : Kind) (sketch : Sketch) : Prop where
  regular : sketch.Regular
  kind : sketch.kind = kind
  field : sketch.field = none

namespace Reader

theorem keeps_fail {Result : Type} (finds : Result → Prop) : Keeps finds fail := by
  mvcgen [fail]

@[spec]
theorem fail_finds_nothing {Result : Type} : Keeps (fun _ : Result => False) fail :=
  keeps_fail _

section Choices

variable {Result : Type} {finds : Result → Prop}

/-- What a reader of one node finds is in particular regular. -/
theorem keeps_node {kind : Kind} {reader : Reader Sketch}
    (keeps : Keeps (Sketch.IsNode kind) reader) : Keeps Sketch.Regular reader := by
  mvcgen [keeps]
  exact fun found regular => ⟨found.regular, regular⟩

theorem keeps_pure {result : Result} (isFound : finds result) : Keeps finds (pure result) := by
  mvcgen

theorem keeps_bind {First : Type} {findsFirst : First → Prop} {first : Reader First}
    {next : First → Reader Result} (keepsFirst : Keeps findsFirst first)
    (keepsNext : ∀ found, findsFirst found → Keeps finds (next found)) :
    Keeps finds (first >>= next) := by
  mvcgen [keepsFirst, keepsNext] with grind

theorem keeps_get {reader : Cursor → Reader Result}
    (keeps : ∀ cursor, cursor.Regular → Keeps finds (reader cursor)) :
    Keeps finds (get >>= reader) := by
  mvcgen [keeps]

theorem keeps_ite {condition : Prop} [Decidable condition] {first second : Reader Result}
    (keeps : Keeps finds first) (otherwise : Keeps finds second) :
    Keeps finds (if condition then first else second) := by
  split
  · exact keeps
  · exact otherwise

theorem finds_of_ok {reader : Reader Result} {cursor next : Cursor} {found : Result}
    (keeps : Keeps finds reader) (regular : cursor.Regular)
    (reads : reader cursor = .ok found next) : finds found ∧ next.Regular := by
  have kept := keeps cursor regular
  simpa only [WP.wp, PredTrans.apply, EStateM.run, reads, SPred.down_pure] using kept

theorem regular_of_error {reader : Reader Result} {cursor failed : Cursor}
    (keeps : Keeps finds reader) (regular : cursor.Regular)
    (fails : reader cursor = .error () failed) : failed.Regular := by
  have kept := keeps cursor regular
  simpa only [WP.wp, PredTrans.apply, EStateM.run, fails, SPred.down_pure] using kept

/-- What is read at the cursor first may be known from where the cursor is. -/
theorem keeps_of_ok {First : Type} {findsFirst : First → Prop} {first : Reader First}
    {next : Cursor → First → Reader Result} (keepsFirst : Keeps findsFirst first)
    (keepsNext : ∀ cursor found behind, first cursor = .ok found behind → findsFirst found →
      Keeps finds (next cursor found)) :
    Keeps finds (get >>= fun cursor => first >>= next cursor) := by
  intro cursor regular
  cases reads : first cursor with
  | ok found behind =>
      obtain ⟨isFound, isRegular⟩ := finds_of_ok keepsFirst regular reads
      have kept := keepsNext cursor found behind reads isFound behind isRegular
      simpa only [WP.wp, PredTrans.apply, EStateM.run, bind, EStateM.bind, get, getThe,
        MonadStateOf.get, EStateM.get, reads] using kept
  | error _ failed =>
      have kept := regular_of_error keepsFirst regular reads
      simpa only [WP.wp, PredTrans.apply, EStateM.run, bind, EStateM.bind, get, getThe,
        MonadStateOf.get, EStateM.get, reads, SPred.down_pure] using kept

end Choices

@[spec]
theorem keeps_atSign (text : String) : KeepsCursor (atSign text) := by
  mvcgen [atSign]

@[spec]
theorem keeps_atWord (text : String) : KeepsCursor (atWord text) := by
  mvcgen [atWord]

@[spec]
theorem keeps_following : KeepsCursor following := by
  mvcgen [following]

@[spec]
theorem keeps_advance : KeepsCursor advance := by
  mvcgen [advance] with grind

@[spec]
theorem keeps_resume : KeepsCursor resume := by
  mvcgen [resume] with grind

@[spec]
theorem keeps_sign (text : String) : KeepsCursor (sign text) := by
  mvcgen [sign] with grind

@[spec]
theorem keeps_word (text : String) : KeepsCursor (word text) := by
  mvcgen [word] with grind

@[spec]
theorem keeps_optionalSign (text : String) : KeepsCursor (optionalSign text) := by
  mvcgen [optionalSign] with grind

@[spec]
theorem keeps_noted {node : Sketch} (regular : node.Regular) :
    Keeps (· = node) (noted node) := by
  mvcgen [noted] with grind [Cursor.Regular.withNode]

@[spec]
theorem keeps_leaf (kind : Kind) : Keeps (Sketch.IsNode kind) (leaf kind) := by
  mvcgen [leaf] with grind [Sketch.Regular.leaf, Sketch.IsNode]

@[spec]
theorem keeps_leafHere (kind : Kind) (length : Nat) :
    Keeps (Sketch.IsNode kind) (leafHere kind length) := by
  mvcgen [leafHere] with grind [Sketch.Regular.leaf, Sketch.IsNode, Cursor.Regular]

@[spec]
theorem keeps_leafRaw (kind : Kind) (length : Nat) :
    Keeps (Sketch.IsNode kind) (leafRaw kind length) := by
  mvcgen [leafRaw] with grind [Sketch.Regular.leaf, Sketch.IsNode, Cursor.Regular]

@[spec]
theorem keeps_finish {kind : Kind} {start : Nat} {children : List Sketch}
    (fits : Fits kind (children.map Sketch.part)) (leads : Leads kind start children)
    (inside : ∀ child ∈ children, child.Regular) :
    Keeps (Sketch.IsNode kind) (finish kind start children) := by
  mvcgen [finish] with grind [Sketch.Regular.node, Sketch.IsNode]

@[spec]
theorem keeps_name : Keeps Sketch.Regular name := by
  mvcgen [name] with grind [Sketch.IsNode, Kind.IsFree]

@[spec]
theorem keeps_anyWord (kind : Kind) :
    Keeps (Sketch.IsNode kind) (anyWord kind) := by
  mvcgen [anyWord] with grind

@[spec]
theorem keeps_automaticSemicolon (afterExpression : Bool) :
    KeepsCursor (automaticSemicolon afterExpression) := by
  mvcgen [automaticSemicolon] with grind

@[spec]
theorem keeps_semicolon (afterExpression : Bool) : KeepsCursor (semicolon afterExpression) := by
  mvcgen [semicolon] with grind

theorem keeps_withIn {Result : Type} {finds : Result → Prop} {reader : Reader Result}
    (allowed : Bool) (keeps : Keeps finds reader) : Keeps finds (withIn allowed reader) := by
  mvcgen [withIn, keeps] with grind

theorem keeps_many {Item : Type} {finds : Item → Prop} {item : Reader (Option Item)}
    (keeps : Keeps (fun found => ∀ one ∈ found, finds one) item) (budget : Nat) :
    Keeps (fun found => ∀ one ∈ found, finds one) (many item budget) := by
  induction budget with
  | zero =>
      mvcgen [many]
      grind
  | succ budget ih => mvcgen [many, keeps, ih] with grind

/-! A list of nodes, or a list of such lists, is regular if each of its nodes is. -/

@[spec]
theorem keeps_withIn_node {reader : Reader Sketch} (allowed : Bool)
    (keeps : Keeps Sketch.Regular reader) : Keeps Sketch.Regular (withIn allowed reader) :=
  keeps_withIn allowed keeps

@[spec]
theorem keeps_withIn_list {reader : Reader (List Sketch)} (allowed : Bool)
    (keeps : Keeps AllRegular reader) : Keeps AllRegular (withIn allowed reader) :=
  keeps_withIn allowed keeps

@[spec]
theorem keeps_many_nodes {item : Reader (Option Sketch)}
    (keeps : Keeps (fun found => ∀ node ∈ found, node.Regular) item) (budget : Nat) :
    Keeps AllRegular (many item budget) :=
  keeps_many keeps budget

@[spec]
theorem keeps_many_lists {item : Reader (Option (List Sketch))}
    (keeps : Keeps (fun found => ∀ list ∈ found, AllRegular list) item) (budget : Nat) :
    Keeps (fun found => ∀ list ∈ found, AllRegular list) (many item budget) :=
  keeps_many keeps budget

end Reader
end Script
end Hookify
