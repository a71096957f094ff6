import Hookify.Script.Functions
import Mathlib.Data.List.Basic

namespace Hookify
namespace Script

/-!
# Places inside places

The walk over a place lists the place and then, child by child, the walks over
its children.  So what lies inside a place that lies inside a third lies inside
the third, and whatever the rewriting looks up by going to children is on the
walk over the place at which it began.

Children have fewer nodes.  So there is induction from the children of a place to
the place, and along the walk from a place to what is inside it, child by child.
-/

/-! ## Children -/

/-- The nodes among the parts of a node. -/
def nodesOf (parts : List (NodePart Node)) : List Node :=
  parts.filterMap fun
    | .text _ => none
    | .child node => some node

theorem nodesOf_cons_child (node : Node) (rest : List (NodePart Node)) :
    nodesOf (.child node :: rest) = node :: nodesOf rest := rfl

theorem size_le_sizeOfParts {parts : List (NodePart Node)} {node : Node}
    (member : .child node ∈ parts) : node.size ≤ sizeOfParts parts := by
  induction parts with
  | nil => exact absurd member List.not_mem_nil
  | cons part rest ih =>
      cases part with
      | text source =>
          rw [sizeOfParts]
          rcases List.mem_cons.mp member with impossible | later
          · cases impossible
          · exact ih later
      | child first =>
          rw [sizeOfParts]
          rcases List.mem_cons.mp member with same | later
          · cases same
            exact Nat.le_add_right _ _
          · exact Nat.le_add_left_of_le (ih later)

theorem Node.size_eq (node : Node) : node.size = sizeOfParts node.parts + 1 := by
  cases node
  rw [Node.size]

theorem Node.mem_children {node child : Node} : child ∈ node.children ↔ .child child ∈ node.parts := by
  rw [Node.children, List.mem_filterMap]
  constructor
  · rintro ⟨part, member, same⟩
    cases part with
    | text source => cases same
    | child other =>
        cases same
        exact member
  · intro member
    exact ⟨.child child, member, rfl⟩

theorem Node.size_lt {node child : Node} (member : child ∈ node.children) :
    child.size < node.size := by
  rw [node.size_eq]
  exact Nat.lt_succ_of_le (size_le_sizeOfParts (Node.mem_children.mp member))

namespace Place

theorem mem_children {place child : Place} :
    child ∈ place.children ↔ ∃ index, place.node.children[index]? = some child.node ∧
      child = ⟨child.node, place.node :: place.ancestors, index :: place.path⟩ := by
  rw [children, List.mem_map]
  constructor
  · rintro ⟨⟨node, index⟩, member, rfl⟩
    exact ⟨index, List.mem_zipIdx_iff_getElem?.mp member, rfl⟩
  · rintro ⟨index, found, same⟩
    exact ⟨⟨child.node, index⟩, List.mem_zipIdx_iff_getElem?.mpr found, same.symm⟩

theorem size_lt_of_mem_children {place child : Place} (member : child ∈ place.children) :
    child.node.size < place.node.size := by
  rcases mem_children.mp member with ⟨index, found, _⟩
  exact Node.size_lt (List.mem_of_getElem? found)

theorem mem_children_of_child? {place child : Place} {field : Field}
    (found : place.child? field = some child) : child ∈ place.children :=
  List.mem_of_find?_eq_some found

theorem mem_children_of_namedChildren {place child : Place} (member : child ∈ place.namedChildren) :
    child ∈ place.children :=
  List.mem_of_mem_filter member

theorem mem_children_of_contents {place child : Place} (member : child ∈ place.contents) :
    child ∈ place.children :=
  mem_children_of_namedChildren (List.mem_of_mem_filter member)

/-! ## The walk -/

theorem placesOfParts_eq (ancestors : List Node) (path : List Nat) (parts : List (NodePart Node)) :
    ∀ index, placesOfParts ancestors path index parts =
      ((nodesOf parts).zipIdx index).flatMap fun (child, index) =>
        child.places ancestors (index :: path) := by
  induction parts with
  | nil =>
      intro index
      rw [placesOfParts]
      rfl
  | cons part rest ih =>
      intro index
      cases part with
      | text source =>
          rw [placesOfParts, ih]
          rfl
      | child node =>
          rw [placesOfParts, ih, nodesOf_cons_child, List.zipIdx_cons, List.flatMap_cons]

/-- The walk goes to the place and then into its children. -/
theorem walk_eq (place : Place) : place.walk = place :: place.children.flatMap walk := by
  rcases place with ⟨⟨kind, field, margin, parts⟩, ancestors, path⟩
  rw [walk, Node.places, placesOfParts_eq, children, List.flatMap_map]
  rfl

theorem mem_walk_self (place : Place) : place ∈ place.walk := by
  rw [walk_eq]
  exact List.mem_cons_self

theorem mem_walk_of_child {outer child inner : Place} (member : child ∈ outer.children)
    (deeper : inner ∈ child.walk) : inner ∈ outer.walk := by
  rw [walk_eq]
  exact List.mem_cons_of_mem _ (List.mem_flatMap.mpr ⟨child, member, deeper⟩)

/-- What is true of a place if it is true of its children is true of all places. -/
@[elab_as_elim]
theorem children_induction {motive : Place → Prop} (place : Place)
    (step : ∀ place : Place, (∀ child ∈ place.children, motive child) → motive place) :
    motive place := by
  induction size : place.node.size using Nat.strongRecOn generalizing place with
  | ind bound ih =>
      exact step place fun child member => ih _ (size ▸ size_lt_of_mem_children member) child rfl

/-- A walk comes to a place where it begins, or from a child of where it begins. -/
@[elab_as_elim]
theorem mem_walk_induction {inner : Place} {motive : (outer : Place) → inner ∈ outer.walk → Prop}
    {outer : Place} (inside : inner ∈ outer.walk) (here : motive inner inner.mem_walk_self)
    (below : ∀ {outer child : Place} (member : child ∈ outer.children) (deeper : inner ∈ child.walk),
      motive child deeper → motive outer (mem_walk_of_child member deeper)) :
    motive outer inside := by
  induction outer using children_induction with
  | step outer ih =>
      have cases := inside
      rw [walk_eq] at cases
      rcases List.mem_cons.mp cases with same | further
      · exact same ▸ here
      · obtain ⟨child, member, deeper⟩ := List.mem_flatMap.mp further
        exact below member deeper (ih child member deeper)

theorem mem_walk_trans {outer middle inner : Place} (first : middle ∈ outer.walk)
    (second : inner ∈ middle.walk) : inner ∈ outer.walk := by
  induction first using mem_walk_induction with
  | here => exact second
  | below member _ ih => exact mem_walk_of_child member ih

theorem mem_walk_of_children {outer place child : Place} (inside : place ∈ outer.walk)
    (member : child ∈ place.children) : child ∈ outer.walk :=
  mem_walk_trans inside (mem_walk_of_child member child.mem_walk_self)

/-- A walk comes to a place where it begins, or from the parent of the place. -/
@[elab_as_elim]
theorem mem_walk_parent_induction {outer : Place}
    {motive : (inner : Place) → inner ∈ outer.walk → Prop} {inner : Place}
    (inside : inner ∈ outer.walk) (here : motive outer outer.mem_walk_self)
    (child : ∀ {parent inner : Place} (above : parent ∈ outer.walk)
      (member : inner ∈ parent.children), motive parent above →
        motive inner (mem_walk_of_children above member)) :
    motive inner inside := by
  have onward : ∀ {start : Place} (above : start ∈ outer.walk) (deeper : inner ∈ start.walk),
      motive start above → motive inner (mem_walk_trans above deeper) := by
    intro start above deeper
    induction deeper using mem_walk_induction with
    | here => exact id
    | below member _ ih =>
        intro known
        exact ih (mem_walk_of_children above member) (child above member known)
  exact onward outer.mem_walk_self inside here

/-- What a node passes on to its children holds of all nodes on the walk. -/
theorem holds_of_mem_walk {holds : Node → Prop} {outer inner : Place}
    (passesOn : ∀ node child, holds node → child ∈ node.children → holds child)
    (here : holds outer.node) (inside : inner ∈ outer.walk) : holds inner.node := by
  induction inside using mem_walk_induction with
  | here => exact here
  | below member _ ih =>
      obtain ⟨index, found, _⟩ := mem_children.mp member
      exact ih (passesOn _ _ here (List.mem_of_getElem? found))

/-- A place on the walk has no more nodes than the place at which the walk begins. -/
theorem size_le_of_mem_walk {outer inner : Place} (inside : inner ∈ outer.walk) :
    inner.node.size ≤ outer.node.size := by
  induction inside using mem_walk_induction with
  | here => exact Nat.le_refl _
  | below member _ ih => exact Nat.le_trans ih (Nat.le_of_lt (size_lt_of_mem_children member))

end Place

/-! ## Statements and declarations -/

theorem mem_children_of_statementExpression? {statement expression : Place}
    (found : statementExpression? statement = some expression) :
    expression ∈ statement.children := by
  rw [statementExpression?] at found
  split at found
  · exact Place.mem_children_of_namedChildren (List.mem_of_head? found)
  · cases found

/-- The initial value of a declared variable stands inside the declaration. -/
theorem mem_walk_of_declarators {declaration value : Place} {name : String}
    (member : (name, some value) ∈ declarators declaration) : value ∈ declaration.walk := by
  rcases List.mem_filterMap.mp member with ⟨declarator, inside, found⟩
  have child := Place.mem_children_of_namedChildren (List.mem_of_mem_filter inside)
  have inDeclaration := Place.mem_walk_of_children declaration.mem_walk_self child
  split at found
  · split at found
    · have same := (Prod.mk.inj (Option.some.inj found)).2
      exact Place.mem_walk_of_children inDeclaration (Place.mem_children_of_child? same)
    · cases found
  · cases found

/-- The name of a declared variable is an identifier inside the declaration. -/
theorem exists_name_of_declarators {declaration : Place} {name : String} {value : Option Place}
    (member : (name, value) ∈ declarators declaration) :
    ∃ place ∈ declaration.walk, place.kind = .identifier ∧ place.text = name := by
  rcases List.mem_filterMap.mp member with ⟨declarator, inside, found⟩
  have child := Place.mem_children_of_namedChildren (List.mem_of_mem_filter inside)
  have inDeclaration := Place.mem_walk_of_children declaration.mem_walk_self child
  split at found
  · rename_i place named
    split at found
    · rename_i identifier
      have same := (Prod.mk.inj (Option.some.inj found)).1
      exact ⟨place, Place.mem_walk_of_children inDeclaration (Place.mem_children_of_child? named),
        beq_iff_eq.mp identifier, same⟩
    · cases found
  · cases found

end Script
end Hookify
