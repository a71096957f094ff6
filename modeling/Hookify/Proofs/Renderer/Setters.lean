import Hookify.Proofs.Facts.Inside
import Hookify.Proofs.Text.Occurrence
import Hookify.Renderer.Replace
import Mathlib.Data.List.Forall2

namespace Hookify
namespace Renderer

open Script Selection

/-!
# The states that a replacement sets

Two idioms are replaced by code that sets states: a chain whose calls write
facets of the element of a selector, and an assignment to a variable that has
become a state.  A chain is replaced as a whole, so every call of it is known
and none leads to other elements: what it writes is what the facts count as
written.
-/

/-- The names of the states that the replacement of a place sets. -/
def setNames (renderer : Renderer) (place : Place) : List String :=
  if (renderer.idiom? place).isNone then
    []
  else
    match place.kind with
    | .callExpression =>
        if (renderer.facts.request? place).isSome || (renderer.helper? place).isSome then []
        else ((renderer.facts.chain? place).map mutatedBy).getD []
    | .assignmentExpression | .augmentedAssignmentExpression | .updateExpression =>
        ((assignment? place).map fun (target, _) => target.text).toList
    | _ => []

/-- The code that a place becomes calls the function that sets a state. -/
def SetsAt (renderer : Renderer) (place : Place) (name : String) : Prop :=
  ∃ text, renderer.idiom? place = some text ∧
    Text.occursIn (Identifier.setter name ++ "(") text = true

/-! ## Chains -/

/-- What is made of several items belongs to them in order. -/
theorem forall₂_of_mapM {Item Result : Type} {f : Item → Option Result} {items : List Item}
    {results : List Result} (all : items.mapM f = some results) :
    List.Forall₂ (fun item result => f item = some result) items results := by
  induction items generalizing results with
  | nil =>
      cases all
      exact .nil
  | cons first rest ih =>
      rw [List.mapM_cons] at all
      simp only [Option.bind_eq_bind, Option.bind_eq_some_iff] at all
      rcases all with ⟨result, isFirst, others, rest_, same⟩
      rw [← Option.some.inj same]
      exact .cons isFirst (ih rest_)

theorem exists_of_mapM {Item Result : Type} {f : Item → Option Result} {items : List Item}
    {results : List Result} (all : items.mapM f = some results) {item : Item}
    (member : item ∈ items) : ∃ result ∈ results, f item = some result := by
  have made := forall₂_of_mapM all
  clear all
  induction made with
  | nil => exact absurd member List.not_mem_nil
  | cons isFirst _ ih =>
      rcases List.mem_cons.mp member with rfl | later
      · exact ⟨_, List.mem_cons_self, isFirst⟩
      · rcases ih later with ⟨other, inside, isOther⟩
        exact ⟨other, List.mem_cons_of_mem _ inside, isOther⟩

theorem occursIn_joinSteps {pattern step : String} {steps : List String}
    (occurs : Text.occursIn pattern step = true) (member : step ∈ steps) (isStatement : Bool) :
    Text.occursIn pattern (joinSteps isStatement steps) = true := by
  rw [joinSteps.eq_def]
  split
  · exact List.mem_singleton.mp member ▸ occurs
  · split
    · exact Text.occursIn_intercalate occurs member _
    · exact Text.occursIn_append_left (Text.occursIn_append_right
        (Text.occursIn_intercalate occurs member _) _) _

theorem occursIn_stateMutation (renderer : Renderer) (selector : String) (facet : Facet)
    (call : MethodCall) :
    Text.occursIn (Identifier.setter (Identifier.state selector facet) ++ "(")
      (renderer.stateMutation selector facet call) = true :=
  Text.occursIn_append_left (Text.occursIn_append_left (Text.occursIn_self _) _) _

/-- In the replacement of a chain there is a step for each of its calls. -/
theorem exists_step_of_chain? {renderer : Renderer} {chain : Chain} {head : Place} {text : String}
    (replaced : renderer.chain? chain head = some text) {call : MethodCall}
    (member : call ∈ chain.calls) :
    ∃ step, renderer.step? chain.target (renderer.element chain.target)
        ((head.parent?.map (·.kind == .expressionStatement)).getD false) call = some step ∧
      Text.occursIn step text = true := by
  rw [chain?] at replaced
  split at replaced
  · rename_i empty
    rw [List.isEmpty_iff.mp empty] at member
    exact absurd member List.not_mem_nil
  · rcases Option.map_eq_some_iff.mp replaced with ⟨steps, all, rfl⟩
    rcases exists_of_mapM all member with ⟨step, inside, isStep⟩
    exact ⟨step, isStep, occursIn_joinSteps (Text.occursIn_self step) inside _⟩

/-- The replacement of a chain sets each state that a call of the chain writes. -/
theorem occursIn_chain? {renderer : Renderer} {chain : Chain} {head : Place} {text : String}
    (replaced : renderer.chain? chain head = some text) {call : MethodCall}
    (member : call ∈ chain.calls) {facet : Facet} (role : call.role = .mutation facet)
    {selector : String} (target : chain.target = .selector selector) :
    Text.occursIn (Identifier.setter (Identifier.state selector facet) ++ "(") text = true := by
  rcases exists_step_of_chain? replaced member with ⟨step, isStep, occurs⟩
  rw [step?, role, target] at isStep
  rw [← Option.some.inj isStep] at occurs
  exact Text.occursIn_trans (occursIn_stateMutation renderer selector facet call) occurs

/-- A call that is replaced as a chain has nothing of the chain above it. -/
theorem chain?_of_call? {renderer : Renderer} {place : Place} {text : String}
    (replaced : renderer.call? place = some text)
    (noRequest : renderer.facts.request? place = none) (noHelper : renderer.helper? place = none)
    {chain : Chain} (chained : renderer.facts.chain? place = some chain)
    (calls : chain.calls ≠ []) : isHead place = true ∧ renderer.chain? chain place = some text := by
  rw [call?, noRequest] at replaced
  dsimp only at replaced
  rw [noHelper, chained] at replaced
  dsimp only at replaced
  split at replaced
  · cases replaced
  · rename_i head
    refine ⟨?_, replaced⟩
    simpa [calls] using head

/-! ## Assignments -/

theorem occursIn_double (setter : String) :
    Text.occursIn (setter ++ "(") (setter ++ "((") = true := by
  have split : setter ++ "((" = (setter ++ "(") ++ "(" := by
    rw [String.append_assoc]
    rfl
  rw [split]
  exact Text.occursIn_append_left (Text.occursIn_self _) _

theorem stateUpdate?_eq_some {renderer : Renderer} {place target : Place} {sign text : String}
    (assigned : assignment? place = some (target, sign))
    (replaced : renderer.stateUpdate? place = some text) :
    renderer.facts.isReactiveVariable target.text = true ∧
      Text.occursIn (Identifier.setter target.text ++ "(") text = true := by
  rw [stateUpdate?, assigned] at replaced
  simp only [Option.bind_eq_bind, Option.bind_some, Option.bind_eq_some_iff] at replaced
  rcases replaced with ⟨_, _, _, reactive, replaced⟩
  have isReactive : renderer.facts.isReactiveVariable target.text = true := by
    by_contra other
    rw [Bool.not_eq_true] at other
    rw [other] at reactive
    cases reactive
  refine ⟨isReactive, ?_⟩
  have call := occursIn_double (Identifier.setter target.text)
  split at replaced
  · rw [← Option.some.inj replaced]
    iterate 4 apply Text.occursIn_append_left
    exact call
  · rcases Option.bind_eq_some_iff.mp replaced with ⟨right, _, replaced⟩
    split at replaced
    · rw [← Option.some.inj replaced]
      iterate 2 apply Text.occursIn_append_left
      exact Text.occursIn_self _
    · rw [← Option.some.inj replaced]
      iterate 8 apply Text.occursIn_append_left
      exact call

/-! ## The choice -/

theorem idiom?_of_call {renderer : Renderer} {place : Place}
    (kind : place.kind = .callExpression) : renderer.idiom? place = renderer.call? place := by
  rw [idiom?, kind]

theorem idiom?_of_update {renderer : Renderer} {place : Place}
    (kind : place.kind = .assignmentExpression ∨ place.kind = .augmentedAssignmentExpression ∨
      place.kind = .updateExpression) :
    renderer.idiom? place = renderer.stateUpdate? place := by
  rw [idiom?]
  rcases kind with kind | kind | kind <;> rw [kind]

theorem setsAt_of_call {renderer : Renderer} {place : Place} {text name : String}
    (replaced : renderer.idiom? place = some text) (kind : place.kind = .callExpression)
    (noRequest : renderer.facts.request? place = none) (noHelper : renderer.helper? place = none)
    {chain : Chain} (chained : renderer.facts.chain? place = some chain)
    (written : name ∈ mutatedBy chain) : renderer.SetsAt place name ∧ isHead place = true := by
  rcases mem_mutatedBy.mp written with ⟨call, effective, facet, selector, role, target, rfl⟩
  have member := mem_calls_of_effective effective
  have asCall := (idiom?_of_call kind).symm.trans replaced
  rcases chain?_of_call? asCall noRequest noHelper chained
    (List.ne_nil_of_mem member) with ⟨head, asChain⟩
  exact ⟨⟨text, replaced, occursIn_chain? asChain member role target⟩, head⟩

theorem setsAt_of_update {renderer : Renderer} {place : Place} {text name : String}
    (replaced : renderer.idiom? place = some text)
    (kind : place.kind = .assignmentExpression ∨ place.kind = .augmentedAssignmentExpression ∨
      place.kind = .updateExpression)
    (assigned : name ∈ ((assignment? place).map fun (target, _) => target.text).toList) :
    renderer.SetsAt place name ∧ renderer.facts.isReactiveVariable name = true := by
  rw [Option.mem_toList, Option.map_eq_some_iff] at assigned
  rcases assigned with ⟨⟨target, sign⟩, found, rfl⟩
  have asUpdate := (idiom?_of_update kind).symm.trans replaced
  rcases stateUpdate?_eq_some found asUpdate with ⟨reactive, occurs⟩
  exact ⟨⟨text, replaced, occurs⟩, reactive⟩

/-- The code that takes the place of a node calls the setters of the states that it sets.  A chain
writes those states, or the node assigns to a variable that has become the state. -/
theorem setsAt_of_mem_setNames {renderer : Renderer} {place : Place} {name : String}
    (sets : name ∈ renderer.setNames place) :
    renderer.SetsAt place name ∧
      ((place.kind = .callExpression ∧ isHead place = true ∧
        ∃ chain, renderer.facts.chain? place = some chain ∧ name ∈ mutatedBy chain) ∨
      renderer.facts.isReactiveVariable name = true) := by
  rw [setNames] at sets
  split at sets
  · exact absurd sets List.not_mem_nil
  · rename_i replaced
    rw [Option.isNone_iff_eq_none] at replaced
    rcases Option.ne_none_iff_exists'.mp replaced with ⟨text, replaced⟩
    split at sets
    · rename_i kind
      split at sets
      · exact absurd sets List.not_mem_nil
      · rename_i plain
        rw [Bool.or_eq_true, not_or, Bool.not_eq_true, Bool.not_eq_true,
          Option.isSome_eq_false_iff, Option.isSome_eq_false_iff, Option.isNone_iff_eq_none,
          Option.isNone_iff_eq_none] at plain
        cases chained : renderer.facts.chain? place with
        | none =>
            rw [chained] at sets
            exact absurd sets List.not_mem_nil
        | some chain =>
            rw [chained] at sets
            rcases setsAt_of_call replaced kind plain.1 plain.2 chained sets with ⟨setsAt, head⟩
            exact ⟨setsAt, .inl ⟨kind, head, chain, rfl, sets⟩⟩
    · rename_i kind
      exact (setsAt_of_update replaced (.inl kind) sets).imp_right .inr
    · rename_i kind
      exact (setsAt_of_update replaced (.inr (.inl kind)) sets).imp_right .inr
    · rename_i kind
      exact (setsAt_of_update replaced (.inr (.inr kind)) sets).imp_right .inr
    · exact absurd sets List.not_mem_nil

end Renderer
end Hookify
