import Hookify.Proofs.Renderer.Alike
import Hookify.Proofs.Script.Order

namespace Hookify
namespace Renderer

open Script Selection
open Text (Alike)

/-!
# Rendering is local

The rules for idioms are written for a given renderer.  Of its rendering they
use only what it makes of the parts of an idiom and of the bodies that the code
takes over, so two renderers that agree on those replace an idiom by the same
text: the rules keep texts alike, here with no note that may stand for another.
All of these places have fewer nodes than the idiom.  The depth to which
rendering goes therefore does not matter, as long as it reaches the leaves.
This stays so if some places are left out.
-/

variable {facts : Facts} {this : Option String} {render other : Place → String}

/-- Two renderings agree on the body of a function. -/
def AgreeInBody (render other : Place → String) (function : Place) : Prop :=
  ∀ body, function.child? .body = some body → render body = other body

/-- Two renderings agree on whatever goes into the code for a place. -/
structure AgreeInside (facts : Facts) (way : Place → Prop) (render other : Place → String)
    (place : Place) : Prop where
  parts : ∀ inner, Place.Reaches way place inner → render inner = other inner
  bodies : ∀ callback ∈ facts.takenOver place, AgreeInBody render other callback

theorem eq_of_rel_alike {text otherText : Option String}
    (related : Option.Rel (Alike fun _ _ => False) text otherText) : text = otherText := by
  cases related with
  | none => rfl
  | some alike => rw [Alike.iff_eq.mp alike]

theorem AgreeInBody.alike {function : Place} (agree : AgreeInBody render other function)
    {first second : Option String} :
    AlikeInBody (fun _ _ => False) ⟨facts, first, render⟩ ⟨facts, second, other⟩ function :=
  fun body found => Alike.iff_eq.mpr (agree body found)

theorem functionBody_congr {first second : Option String} {function : Place}
    (agree : AgreeInBody render other function) :
    functionBody ⟨facts, first, render⟩ function = functionBody ⟨facts, second, other⟩ function :=
  Alike.iff_eq.mp agree.alike.functionBody

/-! ## Calls of a chain -/

section Steps

variable {call : MethodCall} {isStatement : Bool}

theorem animation_congr (target : Target)
    (agree : isStatement = true → ∀ callback,
      call.arguments.getLast?.filter (·.kind.isFunctionLike) = some callback →
        AgreeInBody render other callback) :
    animation ⟨facts, this, render⟩ target isStatement call =
      animation ⟨facts, this, other⟩ target isStatement call := by
  rw [animation, animation]
  split
  · rename_i alone
    split
    · rename_i callback found
      rw [functionBody_congr (agree alone callback found)]
    · rfl
  · rfl

theorem step?_congr (target : Target) (element : Element)
    (arguments : ∀ argument ∈ call.arguments, render argument = other argument)
    (agree : call.role = .animation → isStatement = true → ∀ callback,
      call.arguments.getLast?.filter (·.kind.isFunctionLike) = some callback →
        AgreeInBody render other callback) :
    step? ⟨facts, this, render⟩ target element isStatement call =
      step? ⟨facts, this, other⟩ target element isStatement call := by
  by_cases role : call.role = .animation
  · rw [step?, step?, role]
    dsimp only
    rw [animation_congr target (agree role)]
  · have alike : AlikeArguments (fun _ _ => False) ⟨facts, this, render⟩ ⟨facts, this, other⟩
        call :=
      alikeArguments fun argument member => Alike.iff_eq.mpr (arguments argument member)
    exact eq_of_rel_alike (alike.step? rfl role target element isStatement)

end Steps

theorem element_congr (target : Target) :
    element ⟨facts, this, render⟩ target = element ⟨facts, this, other⟩ target := by
  cases target <;> rfl

theorem mapM_congr {Item Result : Type} {f g : Item → Option Result} {items : List Item}
    (same : ∀ item ∈ items, f item = g item) : items.mapM f = items.mapM g := by
  induction items with
  | nil => rfl
  | cons first rest ih =>
      rw [List.mapM_cons, List.mapM_cons, same first List.mem_cons_self,
        ih fun item member => same item (List.mem_cons_of_mem first member)]

section Idioms

variable {way : Place → Prop} {place : Place}

theorem chain?_congr (passable : Place.Passable way) {chain : Chain}
    (agree : AgreeInside facts way render other place) (isChain : facts.chain? place = some chain)
    (plain : facts.request? place = none) :
    chain? ⟨facts, this, render⟩ chain place = chain? ⟨facts, this, other⟩ chain place := by
  have taken : ∀ call ∈ chain.calls, call.role = .animation → Facts.isStatement place = true →
      ∀ callback, call.arguments.getLast?.filter (·.kind.isFunctionLike) = some callback →
        AgreeInBody render other callback := by
    intro call member role alone callback last
    apply agree.bodies
    rw [Facts.takenOver, plain, isChain]
    dsimp only
    rw [if_pos alone]
    exact List.mem_filterMap.mpr ⟨call, List.mem_filter.mpr ⟨member, beq_iff_eq.mpr role⟩, last⟩
  have steps : chain.calls.mapM (step? ⟨facts, this, render⟩ chain.target
        (element ⟨facts, this, other⟩ chain.target) (Facts.isStatement place)) =
      chain.calls.mapM (step? ⟨facts, this, other⟩ chain.target
        (element ⟨facts, this, other⟩ chain.target) (Facts.isStatement place)) :=
    mapM_congr fun call member => step?_congr _ _
      (fun argument inside =>
        agree.parts argument (reaches_of_mem_calls passable isChain member inside))
      (taken call member)
  rw [chain?, chain?, element_congr]
  dsimp only
  rw [← Facts.isStatement, steps]

/-! ## Helper functions and assignments -/

theorem helper?_congr (passable : Place.Passable way)
    (agree : AgreeInside facts way render other place) (isCall : place.kind = .callExpression) :
    helper? ⟨facts, this, render⟩ place = helper? ⟨facts, this, other⟩ place :=
  eq_of_rel_alike (alike_helper? fun argument member => Alike.iff_eq.mpr
    (agree.parts argument (reaches_of_mem_callArguments passable isCall member)))

theorem stateUpdate?_congr (agree : AgreeInside facts way render other place) (passes : way place) :
    stateUpdate? ⟨facts, this, render⟩ place = stateUpdate? ⟨facts, this, other⟩ place :=
  eq_of_rel_alike (alike_stateUpdate? rfl fun right found => Alike.iff_eq.mpr
    (agree.parts right (Place.reaches_child passes found)))

/-! ## Requests -/

theorem fetch_congr (passable : Place.Passable way) {request : Request}
    (agree : AgreeInside facts way render other place)
    (found : facts.request? place = some request) :
    fetch ⟨facts, this, render⟩ request = fetch ⟨facts, this, other⟩ request := by
  have parts := (Request.all_of_request? passable found).mono agree.parts
  have bodies := agree.bodies
  rw [Facts.takenOver, found] at bodies
  refine Alike.iff_eq.mp (AlikeRequest.fetch
    ⟨parts.mono fun part same => Alike.iff_eq.mpr same,
      fun callback taken => (bodies callback taken).alike, fun url isUrl _ => ?_⟩)
  rw [fragment, fragment]
  dsimp only
  rw [parts.url url isUrl]

/-! ## The choice -/

theorem call?_congr (passable : Place.Passable way)
    (agree : AgreeInside facts way render other place) (isCall : place.kind = .callExpression) :
    call? ⟨facts, this, render⟩ place = call? ⟨facts, this, other⟩ place := by
  rw [call?, call?]
  dsimp only
  split
  · rename_i request found
    rw [fetch_congr passable agree found]
  · rename_i plain
    rw [helper?_congr passable agree isCall]
    split
    · rfl
    · split
      · rename_i chain found
        rw [chain?_congr passable agree found plain]
      · rfl

/-- What an idiom becomes depends on the rendering of its parts and of the bodies taken over. -/
theorem idiom?_congr (passable : Place.Passable way)
    (assignments : ∀ inner : Place, inner.kind = .assignmentExpression ∨
      inner.kind = .augmentedAssignmentExpression ∨ inner.kind = .updateExpression → way inner)
    (agree : AgreeInside facts way render other place) :
    idiom? ⟨facts, this, render⟩ place = idiom? ⟨facts, this, other⟩ place := by
  rw [idiom?, idiom?]
  split
  · exact call?_congr passable agree ‹_›
  · exact stateUpdate?_congr agree (assignments place (.inl ‹_›))
  · exact stateUpdate?_congr agree (assignments place (.inr (.inl ‹_›)))
  · exact stateUpdate?_congr agree (assignments place (.inr (.inr ‹_›)))
  · rfl
  · rfl

/-- What an idiom becomes depends on the rendering of smaller places only. -/
theorem idiom?_congr_of_smaller
    (agree : ∀ inner : Place, inner.node.size < place.node.size → render inner = other inner) :
    idiom? ⟨facts, this, render⟩ place = idiom? ⟨facts, this, other⟩ place := by
  refine idiom?_congr Place.passable_true (fun _ _ => trivial) ⟨fun inner reached => ?_, ?_⟩
  · exact agree inner reached.size_lt
  · intro callback member body found
    have inside := (Facts.reaches_of_mem_takenOver Place.passable_true member).size_lt
    have deeper := Place.size_lt_of_mem_children (Place.mem_children_of_child? found)
    exact agree body (Nat.lt_trans deeper inside)

end Idioms

/-! ## Depth -/

theorem renderParts_congr {first second : Place → String} {parts : List (NodePart Place)}
    (same : ∀ place, .child place ∈ parts → first place = second place) :
    renderParts first parts = renderParts second parts :=
  Alike.iff_eq.mp (alike_renderParts fun place member => Alike.iff_eq.mpr (same place member))

/-- The children among the parts of a place are its children. -/
theorem mem_placeParts_iff {place child : Place} :
    .child child ∈ placeParts place 0 place.node.parts ↔ child ∈ place.children := by
  have counted : ∀ (parts : List (NodePart Node)) (index : Nat),
      .child child ∈ placeParts place index parts ↔
        ∃ entry ∈ (nodesOf parts).zipIdx index,
          (⟨entry.1, place.node :: place.ancestors, entry.2 :: place.path⟩ : Place) = child := by
    intro parts
    induction parts with
    | nil => simp [placeParts, nodesOf]
    | cons part rest ih =>
        intro index
        cases part with
        | text source => simpa [placeParts, nodesOf] using ih index
        | child node => simp [placeParts, nodesOf, ih (index + 1), eq_comm]
  rw [counted, Place.children, List.mem_map]
  rfl

/-- The text that takes the place of a node: nothing for a comment, and for an idiom its
replacement, with the margin of the line on which it stands. -/
def replacement? (renderer : Renderer) (place : Place) : Option String :=
  if place.kind == .comment then some ""
  else (renderer.idiom? place).map (Text.indentContinuation (String.ofList place.node.margin.chars))

/-- Rendering of a place whose nodes are nested at most so deep, without some places. -/
def renderWithoutTo (facts : Facts) (skips : Place → Bool) : Nat → Option String → Place → String
  | 0, _, place => place.text
  | depth + 1, this, place =>
      if place.kind == .comment || skips place then
        ""
      else
        match idiom? ⟨facts, this, renderWithoutTo facts skips depth this⟩ place with
        | some text => Text.indentContinuation (String.ofList place.node.margin.chars) text
        | none =>
            let inside := if place.kind.isPlainFunction then none else this
            renderParts (renderWithoutTo facts skips depth inside)
              (placeParts place 0 place.node.parts)

/-- The renderer of a script that leaves some places out, as it does with comments. -/
def without (facts : Facts) (skips : Place → Bool) (this : Option String) : Renderer where
  facts := facts
  this := this
  render := renderWithoutTo facts skips (facts.root.node.size + 1) this

section Depth

variable {skips : Place → Bool}

theorem renderWithoutTo_nothing (facts : Facts) (depth : Nat) :
    renderWithoutTo facts (fun _ => false) depth = renderTo facts depth := by
  induction depth with
  | zero => rfl
  | succ depth ih =>
      funext this place
      rw [renderWithoutTo, renderTo, ih]
      cases place.kind == .comment <;> rfl

/-- The renderer of a script leaves out comments only. -/
theorem without_nothing (facts : Facts) (this : Option String) :
    without facts (fun _ => false) this = of facts this := by
  rw [without, of, renderWithoutTo_nothing]

/-- Rendering goes deep enough as soon as the depth is the number of nodes. -/
theorem renderWithoutTo_stable (facts : Facts) {depth larger : Nat} (deeper : depth ≤ larger)
    (this : Option String) {place : Place} (enough : place.node.size ≤ depth) :
    renderWithoutTo facts skips larger this place =
      renderWithoutTo facts skips depth this place := by
  induction depth generalizing larger this place with
  | zero =>
      rw [place.node.size_eq] at enough
      exact absurd enough (Nat.not_succ_le_zero _)
  | succ depth ih =>
      rcases Nat.exists_eq_add_one_of_ne_zero
        (Nat.ne_of_gt (Nat.lt_of_lt_of_le (Nat.succ_pos depth) deeper)) with ⟨larger, rfl⟩
      have smaller := Nat.le_of_succ_le_succ deeper
      have below : ∀ {inner : Place}, inner.node.size < place.node.size →
          inner.node.size ≤ depth :=
        fun less => Nat.le_of_lt_succ (Nat.lt_of_lt_of_le less enough)
      have same : idiom? ⟨facts, this, renderWithoutTo facts skips larger this⟩ place =
          idiom? ⟨facts, this, renderWithoutTo facts skips depth this⟩ place :=
        idiom?_congr_of_smaller fun inner less => ih smaller this (below less)
      rw [renderWithoutTo, renderWithoutTo, same]
      split
      · rfl
      · split
        · rfl
        · exact renderParts_congr fun child member =>
            ih smaller _
              (below (Place.size_lt_of_mem_children (mem_placeParts_iff.mp member)))

/-- Rendering replaces a place that is not left out, or it copies the place and renders its
children. -/
theorem render_without (facts : Facts) (this : Option String) {place : Place}
    (small : place.node.size ≤ facts.root.node.size) (kept : skips place = false) :
    (without facts skips this).render place =
      match (without facts skips this).replacement? place with
      | some text => text
      | none =>
          renderParts
            (without facts skips (if place.kind.isPlainFunction then none else this)).render
            (placeParts place 0 place.node.parts) := by
  have stable : ∀ (this : Option String) {inner : Place}, inner.node.size < place.node.size →
      renderWithoutTo facts skips facts.root.node.size this inner =
        renderWithoutTo facts skips (facts.root.node.size + 1) this inner :=
    fun this inner less => (renderWithoutTo_stable facts (Nat.le_succ _) this
      (Nat.le_of_lt (Nat.lt_of_lt_of_le less small))).symm
  have same : idiom? ⟨facts, this, renderWithoutTo facts skips facts.root.node.size this⟩ place =
      idiom? ⟨facts, this, renderWithoutTo facts skips (facts.root.node.size + 1) this⟩ place :=
    idiom?_congr_of_smaller fun inner less => stable this less
  change renderWithoutTo facts skips (facts.root.node.size + 1) this place = _
  rw [renderWithoutTo, same, replacement?, kept, Bool.or_false]
  by_cases comment : (place.kind == .comment) = true
  · rw [if_pos comment, if_pos comment]
  · rw [if_neg comment, if_neg comment, without]
    cases idiom? ⟨facts, this, renderWithoutTo facts skips (facts.root.node.size + 1) this⟩
      place with
    | some text => rfl
    | none =>
        exact renderParts_congr fun child member =>
          stable _ (Place.size_lt_of_mem_children (mem_placeParts_iff.mp member))

end Depth

/-- Rendering replaces a place, or it copies the place and renders its children. -/
theorem render_of (facts : Facts) (this : Option String) {place : Place}
    (small : place.node.size ≤ facts.root.node.size) :
    (Renderer.of facts this).render place =
      match (Renderer.of facts this).replacement? place with
      | some text => text
      | none =>
          renderParts (Renderer.of facts (if place.kind.isPlainFunction then none else this)).render
            (placeParts place 0 place.node.parts) := by
  rw [← without_nothing, ← without_nothing]
  exact render_without facts this small rfl

/-!
## What is copied as it stands

Rendering copies what it does not replace.  A place in which nothing at all is
replaced, at whatever depth, is rendered to its own source text.
-/

/-- A place is copied with everything inside. -/
inductive Copied (facts : Facts) : Option String → Place → Prop where
  | intro {this : Option String} {place : Place}
      (kept : (Renderer.of facts this).replacement? place = none)
      (inside : ∀ child ∈ place.children,
        Copied facts (if place.kind.isPlainFunction then none else this) child) :
      Copied facts this place

variable {place : Place}

theorem renderParts_placeParts_eq {render : Place → String} (place : Place)
    (same : ∀ child ∈ place.children, render child = child.text) :
    renderParts render (placeParts place 0 place.node.parts) = place.text := by
  have parts : ∀ (parts : List (NodePart Node)) (index : Nat),
      (∀ child, .child child ∈ placeParts place index parts → render child = child.text) →
        renderParts render (placeParts place index parts) = textOfParts parts := by
    intro parts
    induction parts with
    | nil => exact fun _ _ => rfl
    | cons part rest ih =>
        intro index same
        cases part with
        | text source =>
            rw [placeParts, renderParts, textOfParts,
              ih index fun child member => same child (List.mem_cons_of_mem _ member)]
        | child node =>
            rw [placeParts, renderParts, textOfParts, same _ List.mem_cons_self,
              ih (index + 1) fun child member => same child (List.mem_cons_of_mem _ member)]
            rfl
  rw [parts _ 0 fun child member => same child (mem_placeParts_iff.mp member), Place.text,
    Node.text_eq]

/-- What is copied with everything inside is rendered to its source text. -/
theorem Copied.render_eq (copied : Copied facts this place)
    (small : place.node.size ≤ facts.root.node.size) :
    (Renderer.of facts this).render place = place.text := by
  induction copied with
  | @intro this place kept inside ih =>
      rw [render_of facts this small, kept]
      exact renderParts_placeParts_eq place fun child member => ih child member
        (Nat.le_trans (Nat.le_of_lt (Place.size_lt_of_mem_children member)) small)

/-- Nodes of these kinds may be replaced; no rule is about any other. -/
def mayBeReplaced : Kind → Bool
  | .comment | .callExpression | .assignmentExpression | .augmentedAssignmentExpression
  | .updateExpression | .this => true
  | _ => false

theorem replacement?_of_kind {renderer : Renderer} (plain : mayBeReplaced place.kind = false) :
    renderer.replacement? place = none := by
  rw [replacement?, idiom?]
  cases kind : place.kind <;> rw [kind] at plain <;> first | rfl | cases plain

/-- A place is copied with everything inside if there is no rule about any of its nodes. -/
theorem copied_of_plain (facts : Facts) {place : Place}
    (plain : ∀ inner ∈ place.walk, mayBeReplaced inner.kind = false) (this : Option String) :
    Copied facts this place := by
  induction place using Place.children_induction generalizing this with
  | step place ih =>
      refine .intro (replacement?_of_kind (plain place place.mem_walk_self)) fun child member => ?_
      exact ih child member (fun inner inside => plain inner (Place.mem_walk_of_child member inside)) _

end Renderer
end Hookify
