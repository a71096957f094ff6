import Hookify.Pass.Stage
import Hookify.Proofs.Component.Names
import Hookify.Proofs.Facts.Chains
import Hookify.Proofs.Pass.Plan
import Mathlib.Logic.Relation

namespace Hookify

open Script Selection

/-!
# What the passes do

A pass goes over the script and acts on a draft by one operation after the
other.  What it may do next depends on the pass and on the script, and for
functions and listeners also on the draft as it is then.

Everything that is claimed about the result of the passes is shown for single
actions.  In particular an action tells what it leaves alone: only the first
pass and the one on changes add states, only listeners claim functions, and so
on.  The parts of the result then come from the passes that may add them.
-/

/-- Some call of the script writes a facet of the element of a selector. -/
def Facts.Writes (facts : Facts) (selector : String) (facet : Facet) : Prop :=
  ∃ head chain call, (head, chain) ∈ chainsIn facts.aliases facts.root ∧
    call ∈ chain.effective ∧ call.role = .mutation facet ∧ chain.target = .selector selector

namespace Pass

/-! ## Actions -/

/-- The target is what the owner stands for: the element of a selector has a reference. -/
def Listens (draft : Draft) (owner : String) (target : ListenerTarget) : Prop :=
  ∀ identifier, target = .reference identifier →
    ∃ reference ∈ draft.references, reference.identifier = identifier ∧
      Identifier.selectorKey reference.selector = Identifier.selectorKey owner

/-- The handler that a binding asks for, under the name that it asks for. -/
def wantedHandler (owner : String) (target : ListenerTarget) (binding : Binding)
    (parameters body : String) : Handler where
  selector := binding.delegate.getD owner
  event := binding.event
  name := Identifier.handler owner binding.delegate binding.event
  parameters := parameters
  body := body
  parent := binding.delegate.map fun _ => owner
  target := target
  once := binding.once

/-- The code that adds the listener of a binding, under the name that the binding asks for. -/
def wantedCode (owner : String) (target : ListenerTarget) (binding : Binding) : String :=
  listenerCode target binding.event (Identifier.handler owner binding.delegate binding.event)
    binding.delegate binding.once

/-- The state that owns a facet of an element. -/
def owningState (selector method : String) (facet : Facet) : StateVariable :=
  ⟨Identifier.state selector facet, firstValue facet method, .reactive, some ⟨selector, facet⟩⟩

/-- What a pass may do next to a draft. -/
inductive Acts (facts : Facts) (draft : Draft) : Stage → Draft.Operation → Prop where
  | declare {state : StateVariable} (member : state ∈ variableStates facts) :
      Acts facts draft .declarations (.addState state)
  | mount {code description : String}
      (listed : ⟨.mount, code, description, none, none⟩ ∈ startEffects facts) :
      Acts facts draft .startup (.addMountEffect code description)
  | fetch {code description : String}
      (listed : ⟨.fetch, code, description, some code, none⟩ ∈ startEffects facts) :
      Acts facts draft .startup (.addFetchEffect code description)
  | claim {target : Target} {binding : Binding} {name : String} {function : Place}
      (binds : (target, binding) ∈ eventBindings facts)
      (source : handlerSource facts binding.handler = .claimed name function) :
      Acts facts draft .listeners (.claim name)
  | locate {selector : String} {binding : Binding}
      (binds : (.selector selector, binding) ∈ eventBindings facts) :
      Acts facts draft .listeners
        (.ensureReferenceNamed selector (facts.referenceName selector))
  | listen {target : Target} {binding : Binding} {owner : String} {listening : ListenerTarget}
      {parameters body : String} (binds : (target, binding) ∈ eventBindings facts)
      (parts : handlerParts? facts binding.delegate (handlerSource facts binding.handler) =
        some (parameters, body))
      (listens : Listens draft owner listening) :
      Acts facts draft .listeners (.addHandler
        (wantedHandler owner listening binding parameters body)
        (wantedCode owner listening binding))
  | refuse (warning : String) : Acts facts draft .listeners (.addWarning warning)
  | request (call : RemoteCall) : Acts facts draft .requests (.addRemoteCall call)
  | animate (animation : Animation) : Acts facts draft .animations (.addAnimation animation)
  | define {name : String} {function : Place}
      (defined : (name, function) ∈ facts.statements.flatMap definedFunctions)
      (unclaimed : draft.isClaimed name = false) :
      Acts facts draft .functions
        (.addFunction (namedFunction facts (Renderer.of facts none) name function))
  | change (mutation : Mutation) : Acts facts draft .mutations (.addMutation mutation)
  | own {selector : String} {facet : Facet} (method : String)
      (writes : facts.Writes selector facet) :
      Acts facts draft .mutations (.addState (owningState selector method facet))
  | warn (warning : String) : Acts facts draft .mutations (.addWarning warning)
  | select {selector : String} (selected : selector ∈ selectorsOf facts) :
      Acts facts draft .references (.addSelector selector)
  | refer {selector : String} (selected : selector ∈ selectorsOf facts) :
      Acts facts draft .references
        (.ensureReferenceNamed selector (facts.referenceName selector))

/-- One action of a pass makes the second draft of the first. -/
def Does (facts : Facts) (stage : Stage) (first second : Draft) : Prop :=
  ∃ operation, Acts facts first stage operation ∧ second = first.perform operation

/-- Any number of actions of a pass, one after the other. -/
abbrev Runs (facts : Facts) (stage : Stage) : Draft → Draft → Prop :=
  Relation.ReflTransGen (Does facts stage)

section Passes

variable {facts : Facts} {stage : Stage}

theorem Acts.runs {draft : Draft} {operation : Draft.Operation}
    (acts : Acts facts draft stage operation) : Runs facts stage draft (draft.perform operation) :=
  .single ⟨operation, acts, rfl⟩

/-- What every action of a pass preserves is preserved by the whole pass. -/
theorem Runs.preserves {first last : Draft} (runs : Runs facts stage first last)
    (invariant : Draft → Prop)
    (preserved : ∀ {draft operation}, Acts facts draft stage operation → invariant draft →
      invariant (draft.perform operation))
    (holds : invariant first) : invariant last := by
  induction runs with
  | refl => exact holds
  | tail _ does ih =>
      rcases does with ⟨operation, acts, rfl⟩
      exact preserved acts ih

theorem Runs.foldl {Item : Type} {items : List Item} {add : Draft → Item → Draft}
    (each : ∀ item ∈ items, ∀ draft, Runs facts stage draft (add draft item)) (draft : Draft) :
    Runs facts stage draft (items.foldl add draft) := by
  induction items generalizing draft with
  | nil => exact .refl
  | cons item rest ih =>
      have first := each item List.mem_cons_self draft
      have others := ih (fun next member => each next (List.mem_cons_of_mem item member))
        (add draft item)
      exact first.trans others

/-! ## The passes one by one -/

theorem runs_declarations (draft : Draft) :
    Runs facts .declarations draft (declarations facts draft) :=
  Runs.foldl (fun _ member _ => (Acts.declare member).runs) draft

theorem runs_startup (draft : Draft) : Runs facts .startup draft (startup facts draft) := by
  rw [startup_eq]
  have listed : ∀ effects : List PendingEffect, (∀ effect ∈ effects, effect ∈ startEffects facts) →
      ∀ draft, Runs facts .startup draft (withEffects draft effects) := by
    intro effects
    induction effects with
    | nil =>
        intro _ draft
        rw [withEffects_nil]
    | cons effect rest ih =>
        intro among draft
        have member := among effect List.mem_cons_self
        have others := ih fun other inside => among other (List.mem_cons_of_mem effect inside)
        rw [← List.singleton_append, withEffects_append]
        refine Relation.ReflTransGen.trans ?_ (others _)
        rcases shape_of_mem_startEffects member with same | same
        · rw [same] at member ⊢
          exact (Acts.mount member).runs
        · rw [same] at member ⊢
          exact (Acts.fetch member).runs
  exact listed _ (fun _ member => member) draft

/-- The target of a listener is found or made first, and the handler is added to it. -/
theorem runs_addBinding {target : Target} {binding : Binding} {parameters body : String}
    (binds : (target, binding) ∈ eventBindings facts)
    (parts : handlerParts? facts binding.delegate (handlerSource facts binding.handler) =
      some (parameters, body)) (draft : Draft) :
    Runs facts .listeners draft (addBinding facts target binding parameters body draft) := by
  cases target with
  | selector selector =>
      refine (Acts.locate binds).runs.trans (Acts.listen binds parts ?_).runs
      intro identifier same
      rw [← ListenerTarget.reference.inj same, Draft.perform, Draft.ensureReferenceNamed]
      split
      · rename_i reference found
        have key := List.find?_some found
        exact ⟨reference, List.mem_of_find?_eq_some found, rfl, by simpa using key⟩
      · exact ⟨_, List.mem_append_right _ (List.mem_singleton.mpr rfl), rfl, rfl⟩
  | page object =>
      refine (Acts.listen binds parts ?_).runs
      intro identifier same
      cases same
  | this => exact .refl

theorem runs_register {target : Target} {binding : Binding}
    (binds : (target, binding) ∈ eventBindings facts) (draft : Draft) :
    Runs facts .listeners draft (register facts target draft binding) := by
  rw [register]
  split
  · rename_i parameters body parts
    refine Relation.ReflTransGen.trans ?_ (runs_addBinding binds parts _)
    cases source : handlerSource facts binding.handler with
    | claimed name function => exact (Acts.claim binds source).runs
    | inline function => exact .refl
    | called code => exact .refl
    | notCallable => exact .refl
  · exact (Acts.refuse _).runs

theorem runs_listeners (draft : Draft) : Runs facts .listeners draft (listeners facts draft) := by
  refine Runs.foldl (fun chain isChain => Runs.foldl fun binding member => runs_register ?_) draft
  exact List.mem_flatMap.mpr ⟨chain, isChain, List.mem_map_of_mem member⟩

theorem runs_requests (draft : Draft) : Runs facts .requests draft (requests facts draft) :=
  Runs.foldl (fun call _ _ => (Acts.request call).runs) draft

theorem runs_animations (draft : Draft) : Runs facts .animations draft (animations facts draft) :=
  Runs.foldl (fun _ _ => Runs.foldl fun _ _ _ => (Acts.animate _).runs) draft

theorem runs_functions (draft : Draft) : Runs facts .functions draft (functions facts draft) := by
  refine Runs.foldl ?_ draft
  intro defined member draft
  dsimp only
  split
  · exact .refl
  · rename_i unclaimed
    exact (Acts.define member (Bool.not_eq_true _ ▸ unclaimed)).runs

/-- A call that writes is before the first traversal, where the facts count it too. -/
theorem mem_effective_of_mem_callsToTraversal {call : MethodCall} {calls : List MethodCall}
    (role : call.role ≠ .traversal) (member : call ∈ callsToTraversal calls) :
    call ∈ calls.takeWhile (·.role != .traversal) := by
  induction calls with
  | nil => exact member
  | cons first rest ih =>
      rw [callsToTraversal] at member
      split at member
      · rename_i leads
        rw [List.mem_singleton.mp member] at role
        exact absurd (beq_iff_eq.mp leads) role
      · rename_i stays
        have kept : (first.role != .traversal) = true := by simpa using stays
        rw [List.takeWhile_cons, if_pos kept]
        rcases List.mem_cons.mp member with same | later
        · exact same ▸ List.mem_cons_self
        · exact List.mem_cons_of_mem first (ih later)

theorem runs_addOwningState {selector : String} {facet : Facet}
    (writes : facts.Writes selector facet) (method : String) (draft : Draft) :
    Runs facts .mutations draft (addOwningState selector method facet draft) := by
  rw [addOwningState]
  split
  · exact .refl
  · exact (Acts.own method writes).runs

theorem runs_recordCall {head : Place} {chain : Chain} {call : MethodCall}
    (chained : (head, chain) ∈ chainsIn facts.aliases facts.root)
    (member : call ∈ callsToTraversal chain.calls) (draft : Draft) :
    Runs facts .mutations draft (recordCall facts head chain.target draft call) := by
  rw [recordCall]
  split
  · rename_i facet role
    have recorded : Runs facts .mutations draft
        (draft.addMutation ⟨chain.target.label, call.name, facet⟩) := (Acts.change _).runs
    dsimp only
    split
    · rename_i selector target
      have effective : call ∈ chain.effective :=
        mem_effective_of_mem_callsToTraversal (by rw [role]; exact Role.noConfusion) member
      exact recorded.trans
        (runs_addOwningState ⟨head, chain, call, chained, effective, role, target⟩ call.name _)
    · exact recorded
  · exact (Acts.warn _).runs
  · exact (Acts.warn _).runs
  · split
    · exact .refl
    · exact (Acts.warn _).runs
  · exact .refl

theorem runs_mutations (draft : Draft) : Runs facts .mutations draft (mutations facts draft) :=
  Runs.foldl (fun _ chained =>
    Runs.foldl fun _ member => runs_recordCall chained member) draft

theorem runs_references (draft : Draft) : Runs facts .references draft (references facts draft) :=
  Runs.foldl (fun _ selected _ =>
    (Acts.select selected).runs.trans (Acts.refer selected).runs) draft

end Passes

/-- A pass does nothing but what it may do. -/
theorem runs_run (facts : Facts) (stage : Stage) (draft : Draft) :
    Runs facts stage draft (stage.run facts draft) := by
  cases stage with
  | declarations => exact runs_declarations draft
  | startup => exact runs_startup draft
  | listeners => exact runs_listeners draft
  | requests => exact runs_requests draft
  | animations => exact runs_animations draft
  | functions => exact runs_functions draft
  | mutations => exact runs_mutations draft
  | references => exact runs_references draft

end Pass
end Hookify
