import Hookify.Proofs.Component.Dependencies
import Hookify.Proofs.Component.References
import Hookify.Proofs.Identifier.Form
import Hookify.Proofs.Pass.Actions
import Mathlib.Data.List.Perm.Basic

namespace Hookify

open Script Selection

/-!
# What a pass may add

Eight passes go over a script, each with its own rules, and all of them only
add to a draft.  As far as names are concerned there are five kinds of
additions: a state, a reference, a handler with its effect, a function, and
records that have no name.  Each comes from something in the script, and the
step that adds it says from what.

Every run of the passes is a sequence of such steps.  What one step preserves
holds at the end, whatever the script binds, declares and writes, and in
whatever order.
-/

/-- The second draft has the same named parts and the same listeners. -/
structure Draft.SameNames (first second : Draft) : Prop extends first.SameParts second where
  listenerEffects : second.listenerEffects = first.listenerEffects

namespace Pass

/-- The state has a reason to be there: the script declares it, or writes what it owns. -/
inductive StateOrigin (facts : Facts) (state : StateVariable) : Prop where
  | declared (member : state ∈ variableStates facts)
  | owning (selector : String) (facet : Facet) (writes : facts.Writes selector facet)
      (named : state.identifier = Identifier.state selector facet)
      (reactive : state.kind = .reactive)

/-- A draft with the handler of a binding. -/
def withHandler (draft : Draft) (owner : String) (target : ListenerTarget) (binding : Binding)
    (parameters body : String) : Draft :=
  (draft.addHandler (wantedHandler owner target binding parameters body)
    (listenerCode target binding.event (Identifier.handler owner binding.delegate binding.event)
      binding.delegate binding.once)).1

/-- What a pass adds at once. -/
inductive Step (facts : Facts) : Draft → Draft → Prop where
  | record {draft later : Draft} (same : draft.SameNames later) : Step facts draft later
  | state {draft : Draft} {state : StateVariable} (origin : StateOrigin facts state)
      (free : state.identifier ∉ draft.taken) : Step facts draft (draft.withState state)
  | reference {draft : Draft} {selector : String} (missing : draft.reference? selector = none) :
      Step facts draft (draft.withReference
        ⟨Identifier.fresh draft.taken (facts.referenceName selector), selector⟩)
  | handler {draft : Draft} {owner : String} {target : ListenerTarget} (binding : Binding)
      (parameters body : String) (listens : Listens draft owner target) :
      Step facts draft (withHandler draft owner target binding parameters body)
  | function {draft : Draft} {function : NamedFunction} {place : Place}
      (defined : (function.name, place) ∈ facts.statements.flatMap definedFunctions)
      (free : function.name ∉ draft.taken) : Step facts draft (draft.withFunction function)

/-- Any number of steps, one after the other. -/
abbrev Steps (facts : Facts) : Draft → Draft → Prop :=
  Relation.ReflTransGen (Step facts)

/-- What every step preserves is preserved by any number of them. -/
theorem Steps.preserves {facts : Facts} {first last : Draft} (steps : Steps facts first last)
    (invariant : Draft → Prop)
    (preserved : ∀ {first second}, Step facts first second → invariant first → invariant second)
    (holds : invariant first) : invariant last := by
  induction steps with
  | refl => exact holds
  | tail _ step ih => exact preserved step ih

section Passes

variable {facts : Facts}

theorem Steps.of_same {draft later : Draft} (same : draft.SameNames later) :
    Steps facts draft later :=
  .single (.record same)

theorem Steps.foldl {Item : Type} {items : List Item} {add : Draft → Item → Draft}
    (each : ∀ item ∈ items, ∀ draft, Steps facts draft (add draft item)) (draft : Draft) :
    Steps facts draft (items.foldl add draft) := by
  induction items generalizing draft with
  | nil => exact .refl
  | cons item rest ih =>
      have first := each item List.mem_cons_self draft
      have others := ih (fun next member => each next (List.mem_cons_of_mem item member))
        (add draft item)
      exact first.trans others

/-! ## The operations of a draft -/

theorem steps_addState {state : StateVariable} (origin : StateOrigin facts state) (draft : Draft) :
    Steps facts draft (draft.addState state).1 := by
  rw [Draft.addState]
  split
  · exact .refl
  · rename_i free
    exact .single (.state origin (mt Draft.isTaken_iff_mem.mpr free))

theorem steps_ensureReferenceNamed (selector : String) (draft : Draft) :
    Steps facts draft
      (draft.ensureReferenceNamed selector (facts.referenceName selector)).1 := by
  rw [Draft.ensureReferenceNamed]
  split
  · exact .refl
  · rename_i missing
    exact .single (.reference missing)

theorem steps_addFunction {function : NamedFunction} {place : Place}
    (defined : (function.name, place) ∈ facts.statements.flatMap definedFunctions)
    (draft : Draft) : Steps facts draft (draft.addFunction function).1 := by
  rw [Draft.addFunction]
  split
  · exact .refl
  · rename_i free
    exact .single (.function defined (mt Draft.isTaken_iff_mem.mpr free))

theorem steps_addWarning (warning : String) (draft : Draft) :
    Steps facts draft (draft.addWarning warning) := by
  rw [Draft.addWarning]
  split
  · exact .refl
  · exact Steps.of_same ⟨⟨rfl, rfl, rfl, rfl, rfl⟩, rfl⟩

theorem steps_addSelector (selector : String) (draft : Draft) :
    Steps facts draft (draft.addSelector selector) := by
  rw [Draft.addSelector]
  split
  · exact .refl
  · exact Steps.of_same ⟨⟨rfl, rfl, rfl, rfl, rfl⟩, rfl⟩

theorem sameNames_addMountEffect (draft : Draft) (code description : String) :
    draft.SameNames (draft.addMountEffect code description) := by
  refine ⟨⟨rfl, rfl, rfl, rfl, rfl⟩, ?_⟩
  rw [Draft.listenerEffects, Draft.addMountEffect, List.filter_append]
  exact List.append_nil _

theorem sameNames_addFetchEffect (draft : Draft) (code description : String) :
    draft.SameNames (draft.addFetchEffect code description) := by
  refine ⟨⟨rfl, rfl, rfl, rfl, rfl⟩, ?_⟩
  rw [Draft.listenerEffects, Draft.addFetchEffect, List.filter_append]
  exact List.append_nil _

/-! ## The passes -/

/-- Whatever a pass does is a step, or changes nothing. -/
theorem Acts.steps {stage : Stage} {draft : Draft} {operation : Draft.Operation}
    (acts : Acts facts draft stage operation) : Steps facts draft (draft.perform operation) := by
  cases acts with
  | declare member => exact steps_addState (.declared member) draft
  | mount listed => exact Steps.of_same (sameNames_addMountEffect draft _ _)
  | fetch listed => exact Steps.of_same (sameNames_addFetchEffect draft _ _)
  | claim binds source => exact Steps.of_same ⟨⟨rfl, rfl, rfl, rfl, rfl⟩, rfl⟩
  | locate binds => exact steps_ensureReferenceNamed _ draft
  | listen binds parts listens => exact .single (.handler _ _ _ listens)
  | refuse warning => exact steps_addWarning warning draft
  | request call => exact Steps.of_same ⟨⟨rfl, rfl, rfl, rfl, rfl⟩, rfl⟩
  | animate animation => exact Steps.of_same ⟨⟨rfl, rfl, rfl, rfl, rfl⟩, rfl⟩
  | define defined unclaimed => exact steps_addFunction defined draft
  | change mutation => exact Steps.of_same ⟨⟨rfl, rfl, rfl, rfl, rfl⟩, rfl⟩
  | own method writes => exact steps_addState (.owning _ _ writes rfl rfl) draft
  | warn warning => exact steps_addWarning warning draft
  | select selected => exact steps_addSelector _ draft
  | refer selected => exact steps_ensureReferenceNamed _ draft

theorem Runs.steps {stage : Stage} {first second : Draft} (runs : Runs facts stage first second) :
    Steps facts first second :=
  runs.preserves (Steps facts first) (fun acts earlier => earlier.trans acts.steps) .refl

end Passes

/-- Passes in whatever order take any number of steps. -/
theorem steps_stages (facts : Facts) (stages : List Stage) (draft : Draft) :
    Steps facts draft (stages.foldl (fun draft stage => stage.run facts draft) draft) :=
  Steps.foldl (fun stage _ draft => (runs_run facts stage draft).steps) draft

theorem steps_runAll (facts : Facts) (draft : Draft) :
    Steps facts draft (Stage.runAll facts draft) :=
  steps_stages facts Stage.all draft

end Pass

/-!
## Names in a draft

The states, references, handlers and functions of a draft have names that are
all different, an element has at most one reference, and the name of a
reference is the one derived from its selector, up to a number at the end.
Every step keeps this, and no step takes away or renames what is there.
-/

namespace Draft

variable {draft : Draft}

/-! ## Well-named drafts -/

/-- All names are different, and references are told apart by the keys of their selectors, from
which they are named. -/
structure WellNamed (draft : Draft) : Prop extends draft.Registered where
  keys : (draft.references.map fun reference => Identifier.selectorKey reference.selector).Nodup
  numbered : ∀ reference ∈ draft.references,
    Identifier.IsNumbered (Identifier.reference reference.selector) reference.identifier

/-- Nothing has been read into the draft. -/
structure Blank (draft : Draft) : Prop where
  taken : draft.taken = []
  states : draft.states = []
  references : draft.references = []
  handlers : draft.handlers = []
  functions : draft.functions = []
  effects : draft.effects = []

theorem Blank.identifiers (blank : draft.Blank) : draft.identifiers = [] := by
  rw [Draft.identifiers, blank.states, blank.references, blank.handlers, blank.functions]
  rfl

theorem Blank.registered (blank : draft.Blank) : draft.Registered := by
  refine ⟨?_, ?_⟩
  · rw [blank.taken, blank.identifiers]
  · rw [blank.identifiers]
    exact List.nodup_nil

theorem Blank.wellNamed (blank : draft.Blank) : draft.WellNamed := by
  refine ⟨blank.registered, ?_, ?_⟩
  · rw [blank.references]
    exact List.nodup_nil
  · rw [blank.references]
    exact fun _ member => absurd member List.not_mem_nil

/-- Something in the code that is called has the name: a handler or a function. -/
def NamesCode (draft : Draft) (name : String) : Prop :=
  (∃ handler ∈ draft.handlers, handler.name = name) ∨
    ∃ function ∈ draft.functions, function.name = name

theorem NamesCode.extend {first second : Draft} (extended : first.Extends second) {name : String}
    (named : first.NamesCode name) : second.NamesCode name := by
  rcases named with ⟨handler, member, same⟩ | ⟨function, member, same⟩
  · exact .inl ⟨handler, extended.handlers.subset member, same⟩
  · exact .inr ⟨function, extended.functions.subset member, same⟩

theorem NamesCode.mem {name : String} (named : draft.NamesCode name) :
    name ∈ draft.handlers.map (·.name) ++ draft.functions.map (·.name) := by
  rcases named with ⟨handler, member, rfl⟩ | ⟨function, member, rfl⟩
  · exact List.mem_append_left _ (List.mem_map_of_mem member)
  · exact List.mem_append_right _ (List.mem_map_of_mem member)

/-- What is called is named neither like a state nor like a reference. -/
theorem WellNamed.not_namesCode (named : draft.WellNamed) {name : String}
    (member : name ∈ draft.states.map (·.identifier) ++ draft.references.map (·.identifier)) :
    ¬ draft.NamesCode name := by
  intro code
  have distinct := named.distinct
  rw [identifiers, List.append_assoc] at distinct
  exact (List.nodup_append.mp distinct).2.2 name member name code.mem rfl

theorem WellNamed.filter_references (named : draft.WellNamed) {reference : Reference}
    (member : reference ∈ draft.references) :
    draft.references.filter (·.identifier == reference.identifier) = [reference] := by
  have distinct := named.distinct
  rw [identifiers, List.append_assoc, List.append_assoc] at distinct
  have references := (List.nodup_append.mp (List.nodup_append.mp distinct).2.1).1
  exact filter_eq_singleton references member

end Draft

/-! ## Steps -/

namespace Facts

/-- The reference to the element of a selector is named after it. -/
theorem isNumbered_referenceName (facts : Facts) (selector : String) :
    Identifier.IsNumbered (Identifier.reference selector) (facts.referenceName selector) :=
  Identifier.isNumbered_fresh _ _

theorem referenceName_not_mem (facts : Facts) (selector : String) :
    facts.referenceName selector ∉ facts.names :=
  Identifier.fresh_not_mem _ _

theorem referenceName_eq_of_key (facts : Facts) {first second : String}
    (same : Identifier.selectorKey first = Identifier.selectorKey second) :
    facts.referenceName first = facts.referenceName second := by
  rw [referenceName, referenceName, Identifier.reference_eq_of_key same]

end Facts

namespace Pass

open Draft

variable {facts : Facts} {first second : Draft}

/-- As far as names are concerned, a step is a change like any other. -/
theorem Step.change (step : Step facts first second) : first.Change second := by
  cases step with
  | record same => exact .same same.toSameParts
  | state origin free => exact .state free
  | reference missing => exact .reference (Identifier.fresh_not_mem _ _)
  | handler binding parameters body listens => exact .handler _ _
  | function defined free => exact .function free

theorem Step.extends (step : Step facts first second) : first.Extends second :=
  step.change.extends

theorem Steps.extends (steps : Steps facts first second) : first.Extends second :=
  steps.preserves first.Extends (fun step extended => extended.trans step.extends)
    (Extends.refl first)

theorem Steps.registered (steps : Steps facts first second) (registered : first.Registered) :
    second.Registered :=
  steps.preserves Registered (fun step => step.change.registered) registered

theorem Step.wellNamed (step : Step facts first second) (named : first.WellNamed) :
    second.WellNamed := by
  have registered := step.change.registered named.toRegistered
  cases step with
  | record same =>
      refine ⟨registered, ?_, ?_⟩
      · rw [same.references]
        exact named.keys
      · rw [same.references]
        exact named.numbered
  | state origin free => exact ⟨registered, named.keys, named.numbered⟩
  | @reference selector missing =>
      refine ⟨registered, nodup_keys_withReference named.keys missing, ?_⟩
      · intro reference member
        rcases List.mem_append.mp member with earlier | added
        · exact named.numbered reference earlier
        · rw [List.mem_singleton.mp added]
          exact (facts.isNumbered_referenceName selector).trans (Identifier.isNumbered_fresh _ _)
  | handler binding parameters body listens => exact ⟨registered, named.keys, named.numbered⟩
  | function defined free => exact ⟨registered, named.keys, named.numbered⟩

theorem Steps.wellNamed (steps : Steps facts first second) (named : first.WellNamed) :
    second.WellNamed :=
  steps.preserves WellNamed Step.wellNamed named

end Pass
end Hookify
