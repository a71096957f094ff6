import Hookify.Proofs.Renderer.Locality
import Hookify.Proofs.Script.Paths
import Hookify.Proofs.Script.Trees

namespace Hookify

open Script Selection

/-!
# Whose `this` it is

A function that is no arrow function binds `this` anew.  So inside of a function
`this` is the function's own wherever no such function lies between.

Rendering does not ask at each place what lies between.  It replaces `this` on
its way down, and stops doing so where it comes to a function that binds `this`.
But of some functions it takes over the body alone, and those it does not notice.
So it replaces `this` by the rule of the language if all functions whose bodies
are taken over are arrow functions.

To say so, the rendering is compared with one that goes the same way, but is
told for each single place what stands for `this` there.
-/

namespace Renderer

/-! ## Rendering with a choice -/

/-- Rendering that is told for each place what stands for `this`; for a selection of `this` it is
the place of the call that is replaced. -/
def renderBy (facts : Facts) (choice : Place → Option String) : Nat → Place → String
  | 0, place => place.text
  | depth + 1, place =>
      if place.kind == .comment then
        ""
      else
        match idiom? ⟨facts, choice place, renderBy facts choice depth⟩ place with
        | some text => Text.indentContinuation (String.ofList place.node.margin.chars) text
        | none => renderParts (renderBy facts choice depth) (placeParts place 0 place.node.parts)

/-- The renderer of a script that is told for each place what stands for `this`. -/
def choosing (facts : Facts) (choice : Place → Option String) : Renderer where
  facts := facts
  this := none
  render := renderBy facts choice (facts.root.node.size + 1)

/-- What stands for `this` inside of a function, if an expression stands for the function's own. -/
def lexicalThis (function : Place) (expression : String) (place : Place) : Option String :=
  if (Place.between function place).any (·.kind.isPlainFunction) then none else some expression

/-- On the way down from a place, a choice changes as the rendering does: it begins with what stands
for `this`, and below functions that bind `this` it is nothing. -/
inductive Follows (choice : Place → Option String) : Option String → Place → Prop where
  | intro {this : Option String} {place : Place} (here : choice place = this)
      (inside : ∀ child ∈ place.children,
        Follows choice (if place.kind.isPlainFunction then none else this) child) :
      Follows choice this place

section Follows

variable {choice : Place → Option String} {this : Option String} {place inner function : Place}
  {expression : String}

theorem Follows.here (follows : Follows choice this place) : choice place = this := by
  cases follows
  assumption

theorem Follows.of_mem_children (follows : Follows choice this place) (member : inner ∈ place.children) :
    Follows choice (if place.kind.isPlainFunction then none else this) inner := by
  cases follows with
  | intro here inside => exact inside inner member

theorem Follows.child (follows : Follows choice this place)
    (arrow : place.kind.isPlainFunction = false) (member : inner ∈ place.children) :
    Follows choice this inner := by
  have inside := follows.of_mem_children member
  rwa [arrow, if_neg Bool.false_ne_true] at inside

theorem lexicalThis_of_mem_children (inside : function.path.length < place.path.length)
    (member : inner ∈ place.children) :
    lexicalThis function expression inner =
      if place.kind.isPlainFunction then none else lexicalThis function expression place := by
  have apart : place.path ≠ function.path := fun same => by
    rw [same] at inside
    exact Nat.lt_irrefl _ inside
  rw [lexicalThis, Place.between_of_deeper member apart, List.any_cons, lexicalThis]
  cases place.kind.isPlainFunction <;> rfl

/-- The rule of the language changes on the way down as the rendering does. -/
theorem follows_lexicalThis (inside : function.path.length < place.path.length) :
    Follows (lexicalThis function expression) (lexicalThis function expression place) place := by
  induction place using Place.children_induction with
  | step place ih =>
      refine .intro rfl fun child member => ?_
      have deeper : function.path.length < child.path.length :=
        Place.length_path_of_mem_children member ▸ Nat.lt_succ_of_lt inside
      rw [← lexicalThis_of_mem_children inside member]
      exact ih child member deeper

end Follows

/-! ## Going down without passing functions -/

section Ways

variable {tree : Node}

/-- A place of a tree that is no function with a `this` of its own. -/
def IsOpen (tree : Node) (place : Place) : Prop :=
  place ∈ (Place.ofRoot tree).walk → place.kind.isPlainFunction = false

theorem isOpen_of_kind {place : Place} {kind : Kind} (same : place.kind = kind)
    (arrow : kind.isPlainFunction = false) : IsOpen tree place :=
  fun _ => same ▸ arrow

/-- In a regular tree no function stands in the way to the parts of an idiom. -/
theorem passable_isOpen (regular : tree.Regular) : Place.Passable (IsOpen tree) where
  call := fun _ same => isOpen_of_kind same rfl
  member := fun _ same => isOpen_of_kind same rfl
  object := fun _ same => isOpen_of_kind same rfl
  pair := fun _ same => isOpen_of_kind same rfl
  list := by
    intro call list isCall found inside
    have member := Place.mem_children_of_child? found
    have callInside := (Place.mem_children_of_parent? inside (Place.parent?_of_mem_children member)).1
    have fits := (Place.regular_of_mem_walk regular callInside).fits
    change call.node.kind = .callExpression at isCall
    rw [isCall, Fits] at fits
    have isList : list.field = some .arguments := by simpa using List.find?_some found
    obtain ⟨index, isChild, _⟩ := Place.mem_children.mp member
    have kinds := fits.2.2 list.node.part
      (List.mem_map.mpr ⟨list.node, List.mem_of_getElem? isChild, rfl⟩) isList
    rcases kinds with same | same <;> exact isOpen_of_kind same rfl inside

theorem Follows.of_reaches {choice : Place → Option String} {this : Option String}
    {place inner : Place} (follows : Follows choice this place)
    (inside : place ∈ (Place.ofRoot tree).walk) (reaches : Place.Reaches (IsOpen tree) place inner) :
    Follows choice this inner := by
  induction reaches with
  | single step => exact follows.child (step.1 inside) step.2
  | tail before step ih =>
      have below := Place.mem_walk_trans inside (Place.Reaches.mem_walk before)
      exact ih.child (step.1 below) step.2

/-- What stands for `this` does not change on a way that passes no function. -/
theorem lexicalThis_of_reaches {function place inner : Place} {expression : String}
    (deeper : function.path.length < place.path.length) (inside : place ∈ (Place.ofRoot tree).walk)
    (reaches : Place.Reaches (IsOpen tree) place inner) :
    lexicalThis function expression inner = lexicalThis function expression place :=
  ((follows_lexicalThis deeper).of_reaches inside reaches).here

/-- For a selection of `this`, nothing changes between the call that is replaced and `this`. -/
theorem lexicalThis_of_selection (regular : tree.Regular) {facts : Facts} {function place : Place}
    {chain : Chain} {expression : String} (deeper : function.path.length < place.path.length)
    (inside : place ∈ (Place.ofRoot tree).walk) (found : facts.chain? place = some chain)
    (target : chain.target = .this) :
    ∃ occurrence, (callArguments chain.root).head? = some occurrence ∧ occurrence.kind = .this ∧
      lexicalThis function expression occurrence = lexicalThis function expression place := by
  obtain ⟨occurrence, selected, isThis, reaches⟩ :=
    exists_this_of_at? (passable_isOpen regular) found target
  exact ⟨occurrence, selected, isThis, lexicalThis_of_reaches deeper inside reaches⟩

end Ways

/-! ## The comparison -/

variable {tree : Node} {facts : Facts}

/-- Rendering goes by the choice for each place, if all bodies that it takes over are bodies of arrow
functions. -/
theorem renderTo_eq_renderBy (regular : tree.Regular) {choice : Place → Option String}
    {this : Option String} {place : Place} {depth : Nat}
    (inside : place ∈ (Place.ofRoot tree).walk)
    (arrows : ∀ inner ∈ place.walk, ∀ callback ∈ facts.takenOver inner,
      callback.kind.isPlainFunction = false) (follows : Follows choice this place) :
    renderTo facts depth this place = renderBy facts choice depth place := by
  induction depth generalizing this place with
  | zero => rw [renderTo, renderBy]
  | succ depth ih =>
      have at_ : ∀ {this inner}, inner ∈ place.walk → Follows choice this inner →
          renderTo facts depth this inner = renderBy facts choice depth inner :=
        fun below follows => ih (Place.mem_walk_trans inside below)
          (fun _ deeper => arrows _ (Place.mem_walk_trans below deeper)) follows
      have same : idiom? ⟨facts, this, renderTo facts depth this⟩ place =
          idiom? ⟨facts, choice place, renderBy facts choice depth⟩ place := by
        rw [follows.here]
        refine idiom?_congr (passable_isOpen regular) ?_ ⟨fun inner reached => ?_, ?_⟩
        · rintro inner (same | same | same) <;> exact isOpen_of_kind same rfl
        · exact at_ reached.mem_walk (follows.of_reaches inside reached)
        · intro callback member body found
          have reached := Facts.reaches_of_mem_takenOver (passable_isOpen regular) member
          have isBody := Place.mem_children_of_child? found
          refine at_ (Place.mem_walk_of_children reached.mem_walk isBody) ?_
          exact (follows.of_reaches inside reached).child
            (arrows place place.mem_walk_self callback member) isBody
      rw [renderTo, renderBy, same]
      by_cases comment : (place.kind == .comment) = true
      · rw [if_pos comment, if_pos comment]
      · rw [if_neg comment, if_neg comment]
        cases idiom? ⟨facts, choice place, renderBy facts choice depth⟩ place with
        | some text => rfl
        | none =>
            refine renderParts_congr fun child member => ?_
            have isChild := mem_placeParts_iff.mp member
            exact at_ (Place.mem_walk_of_children place.mem_walk_self isChild)
              (follows.of_mem_children isChild)

/-- In the body of a function, `this` is replaced exactly where no function between binds it anew, if
all bodies that are taken over are bodies of arrow functions. -/
theorem functionBody_of_eq (regular : tree.Regular) {function : Place}
    (inside : function ∈ (Place.ofRoot tree).walk)
    (arrows : ∀ inner ∈ function.walk, ∀ callback ∈ facts.takenOver inner,
      callback.kind.isPlainFunction = false) (expression : String) :
    (Renderer.of facts (some expression)).functionBody function =
      (choosing facts (lexicalThis function expression)).functionBody function := by
  refine functionBody_congr fun body found => ?_
  have member := Place.mem_children_of_child? found
  have below := Place.mem_walk_of_children function.mem_walk_self member
  refine renderTo_eq_renderBy regular (Place.mem_walk_trans inside below)
    (fun _ deeper => arrows _ (Place.mem_walk_trans below deeper)) ?_
  have deeper : function.path.length < body.path.length :=
    Place.length_path_of_mem_children member ▸ Nat.lt_succ_self _
  have own : lexicalThis function expression body = some expression := by
    rw [lexicalThis, Place.between_of_mem_children member]
    rfl
  exact own ▸ follows_lexicalThis deeper

end Renderer
end Hookify
