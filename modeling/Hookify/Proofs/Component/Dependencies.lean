import Hookify.Component.Draft
import Hookify.Proofs.Component.Names
import Mathlib.Data.List.Forall2
import Mathlib.Data.List.Nodup

namespace Hookify

/-!
# Effects and what makes them run again

The dependencies of an effect are determined when the draft is finished, from
the states that there are in the end.  A name is among them for one of two
reasons: the code that the effect reads refers to it, or it tells whether the
element that is listened to is shown.  In both cases it is the name of a state
that can change, and it stands there once.
-/

/-! ## Effects that listen -/

/-- The code of an effect is run for an event. -/
def Trigger.isEvent : Trigger → Bool
  | .event _ => true
  | .mount | .fetch => false

/-- The effects that listen. -/
def Draft.listenerEffects (draft : Draft) : List PendingEffect :=
  draft.effects.filter (·.trigger.isEvent)

/-- The effects that listen, in order. -/
def Component.listenerEffects (component : Component) : List Effect :=
  component.effects.filter (·.trigger.isEvent)

/-- Finishing a draft keeps the order of the effects. -/
theorem Draft.listenerEffects_finish (draft : Draft) :
    draft.finish.listenerEffects = draft.listenerEffects.map (resolve draft.states) := by
  rw [Component.listenerEffects, finish, List.filter_map]
  rfl

/-! ## Elements that are shown -/

/-- The state stands for whether the element of a selector is shown. -/
def StateVariable.Shows (state : StateVariable) (selector : String) : Prop :=
  ∃ purpose, state.purpose = some purpose ∧ purpose.facet = .visibility ∧
    Identifier.selectorKey purpose.selector = Identifier.selectorKey selector

theorem StateVariable.shows_iff {state : StateVariable} {selector : String} :
    state.shows selector = true ↔ state.Shows selector := by
  rw [shows, Shows]
  cases state.purpose <;> simp

/-- The first of the states that stands for whether the element of a selector is shown has the
identifier. -/
def ShownFirst (states : List StateVariable) (selector identifier : String) : Prop :=
  ∃ before state after, states = before ++ state :: after ∧ state.identifier = identifier ∧
    state.Shows selector ∧ ∀ other ∈ before, ¬ other.Shows selector

theorem ShownFirst.mem {states : List StateVariable} {selector identifier : String}
    (shown : ShownFirst states selector identifier) : identifier ∈ states.map (·.identifier) := by
  rcases shown with ⟨before, state, after, rfl, rfl, _, _⟩
  exact List.mem_map_of_mem (List.mem_append_right before List.mem_cons_self)

/-- The search finds the first reactive state that stands for whether the element is shown. -/
theorem visibilityState?_eq_some_iff {states : List StateVariable} {selector identifier : String} :
    visibilityState? states selector = some identifier ↔
      ShownFirst (states.filter (·.isReactive)) selector identifier := by
  have hidden : ∀ other : StateVariable,
      (!other.shows selector) = true ↔ ¬ other.Shows selector := by
    intro other
    rw [← StateVariable.shows_iff, Bool.not_eq_true', Bool.not_eq_true]
  rw [visibilityState?, Option.map_eq_some_iff]
  constructor
  · rintro ⟨state, found, same⟩
    rcases List.find?_eq_some_iff_append.mp found with ⟨shows, before, after, parts, none⟩
    exact ⟨before, state, after, parts, same, StateVariable.shows_iff.mp shows,
      fun other member => (hidden other).mp (none other member)⟩
  · rintro ⟨before, state, after, parts, same, shows, none⟩
    exact ⟨state, List.find?_eq_some_iff_append.mpr ⟨StateVariable.shows_iff.mpr shows, before,
      after, parts, fun other member => (hidden other).mpr (none other member)⟩, same⟩

/-! ## Dependencies -/

namespace Draft

/-- The names of the states that can change. -/
def reactiveNames (states : List StateVariable) : List String :=
  (states.filter (·.isReactive)).map (·.identifier)

variable {states : List StateVariable} {effect : PendingEffect} {name : String}

theorem mem_dependencies {code : String} {reactive : List String} :
    name ∈ Identifier.dependencies code reactive ↔
      name ∈ reactive ∧ name ∈ Identifier.referenced code := by
  rw [Identifier.dependencies, List.mem_filter, List.contains_iff_mem]

/-- What the code of an effect reads. -/
def readNames (states : List StateVariable) (effect : PendingEffect) : List String :=
  match effect.reads with
  | some code => Identifier.dependencies code (reactiveNames states)
  | none => []

/-- What an effect depends on because its element may be hidden and shown anew. -/
def shownNames (states : List StateVariable) (effect : PendingEffect) : List String :=
  (effect.owner.bind (visibilityState? states)).toList

theorem dependencies_resolve :
    (resolve states effect).dependencies =
      readNames states effect ++
        (shownNames states effect).filter (! (readNames states effect).contains ·) :=
  rfl

theorem mem_readNames :
    name ∈ readNames states effect ↔ ∃ code, effect.reads = some code ∧
      name ∈ reactiveNames states ∧ name ∈ Identifier.referenced code := by
  rw [readNames]
  cases effect.reads with
  | none => simp
  | some code => simp [mem_dependencies]

theorem mem_shownNames :
    name ∈ shownNames states effect ↔ ∃ owner, effect.owner = some owner ∧
      ShownFirst (states.filter (·.isReactive)) owner name := by
  simp only [shownNames, Option.mem_toList, Option.bind_eq_some_iff, visibilityState?_eq_some_iff]

/-- Why a name makes an effect run again. -/
theorem mem_dependencies_resolve :
    name ∈ (resolve states effect).dependencies ↔
      (∃ code, effect.reads = some code ∧ name ∈ reactiveNames states ∧
        name ∈ Identifier.referenced code) ∨
      ∃ owner, effect.owner = some owner ∧
        ShownFirst (states.filter (·.isReactive)) owner name := by
  rw [dependencies_resolve, List.mem_append, List.mem_filter, ← mem_readNames, ← mem_shownNames]
  by_cases read : name ∈ readNames states effect <;> simp [read]

theorem reactive_of_mem_dependencies (member : name ∈ (resolve states effect).dependencies) :
    name ∈ reactiveNames states := by
  rcases mem_dependencies_resolve.mp member with ⟨_, _, reactive, _⟩ | ⟨_, _, shown⟩
  · exact reactive
  · exact shown.mem

theorem nodup_dependencies (distinct : (reactiveNames states).Nodup) :
    (resolve states effect).dependencies.Nodup := by
  have read : (readNames states effect).Nodup := by
    rw [readNames]
    split
    · exact distinct.filter _
    · exact List.nodup_nil
  have shown : (shownNames states effect).Nodup := by
    rw [shownNames]
    cases effect.owner.bind (visibilityState? states) with
    | none => exact List.nodup_nil
    | some identifier => exact List.nodup_singleton identifier
  rw [dependencies_resolve]
  refine List.nodup_append.mpr ⟨read, shown.filter _, ?_⟩
  intro first isRead second isShown same
  have unread := (List.mem_filter.mp isShown).2
  rw [← same, List.contains_iff_mem.mpr isRead] at unread
  exact absurd unread (by decide)

end Draft

/-!
## Dependencies after any operations

An effect is added long before its dependencies are known, and the states that
it depends on may be added before it or after it.  What the draft keeps of the
effect until then is enough: for a listener the code of its handler and the
element that it listens to, and for a request the code itself.

The names of the states are different when the draft is finished, so that no
dependency is listed twice.
-/

namespace Draft

/-- What a draft keeps of an effect that does not listen: code that is run once reads nothing, and
a request reads what it consists of. -/
structure KeepsCode (effect : PendingEffect) : Prop where
  mount : effect.trigger = .mount → effect.reads = none
  fetch : effect.trigger = .fetch → effect.reads = some effect.code
  owner : effect.trigger.isEvent = false → effect.owner = none

/-- What a draft keeps of an effect that listens. -/
structure KeepsHandler (handler : Handler) (effect : PendingEffect) : Prop where
  trigger : effect.trigger = .event handler.event
  reads : effect.reads = some handler.body
  owner : effect.owner = listenerOwner? handler

/-- The draft keeps what the dependencies of its effects are determined from. -/
structure KeepsSources (draft : Draft) : Prop where
  effects : ∀ effect ∈ draft.effects, KeepsCode effect
  listeners : List.Forall₂ KeepsHandler draft.handlers draft.listenerEffects

namespace KeepsSources

variable {draft : Draft} (keeps : draft.KeepsSources)

include keeps

theorem of_same {later : Draft} (handlers : later.handlers = draft.handlers)
    (effects : later.effects = draft.effects) : later.KeepsSources := by
  refine ⟨effects ▸ keeps.effects, ?_⟩
  rw [listenerEffects, handlers, effects]
  exact keeps.listeners

theorem addEffect {effect : PendingEffect} (quiet : effect.trigger.isEvent = false)
    (code : KeepsCode effect) :
    ({ draft with effects := draft.effects ++ [effect] } : Draft).KeepsSources := by
  refine ⟨?_, ?_⟩
  · intro other member
    rcases List.mem_append.mp member with earlier | added
    · exact keeps.effects other earlier
    · exact List.mem_singleton.mp added ▸ code
  · have unheard : [effect].filter (·.trigger.isEvent) = [] := by
      rw [List.filter_singleton, quiet]
      rfl
    rw [listenerEffects, List.filter_append, unheard, List.append_nil]
    exact keeps.listeners

theorem addHandler (handler : Handler) (code : String) :
    (draft.addHandler handler code).1.KeepsSources := by
  refine ⟨?_, ?_⟩
  · intro other member
    rcases List.mem_append.mp member with earlier | added
    · exact keeps.effects other earlier
    · rw [List.mem_singleton.mp added]
      exact ⟨Trigger.noConfusion, Trigger.noConfusion, Bool.noConfusion⟩
  · rw [listenerEffects, Draft.addHandler, List.filter_append]
    exact List.rel_append keeps.listeners (.cons ⟨rfl, rfl, rfl⟩ .nil)

theorem perform (operation : Operation) : (draft.perform operation).KeepsSources := by
  cases operation with
  | addState state =>
      rw [Draft.perform, addState]
      split <;> exact keeps.of_same rfl rfl
  | ensureReference selector =>
      rw [Draft.perform, ensureReference, ensureReferenceNamed]
      split <;> exact keeps.of_same rfl rfl
  | ensureReferenceNamed selector wanted =>
      rw [Draft.perform, Draft.ensureReferenceNamed]
      split <;> exact keeps.of_same rfl rfl
  | addHandler handler code => exact keeps.addHandler handler code
  | addMountEffect code description =>
      exact keeps.addEffect rfl ⟨fun _ => rfl, Trigger.noConfusion, fun _ => rfl⟩
  | addFetchEffect code description =>
      exact keeps.addEffect rfl ⟨Trigger.noConfusion, fun _ => rfl, fun _ => rfl⟩
  | addFunction function =>
      rw [Draft.perform, addFunction]
      split <;> exact keeps.of_same rfl rfl
  | addSelector selector =>
      rw [Draft.perform, Draft.addSelector]
      split <;> exact keeps.of_same rfl rfl
  | addWarning warning =>
      rw [Draft.perform, Draft.addWarning]
      split <;> exact keeps.of_same rfl rfl
  | _ => exact keeps.of_same rfl rfl

end KeepsSources

theorem keepsSources_performAll (name source : String) (operations : List Operation) :
    ((new name source).performAll operations).KeepsSources :=
  performAll_preserves KeepsSources (fun operation keeps => keeps.perform operation)
    ⟨fun _ member => absurd member List.not_mem_nil, .nil⟩ operations

end Draft

/-! ## In the finished component -/

namespace Component

/-- The names of the states that can change. -/
def reactiveNames (component : Component) : List String :=
  component.reactiveStates.map (·.identifier)

/-- The effect depends on nothing twice, and on nothing but states that can change; without an
event it depends on what its own code refers to, if it is a request, and on nothing otherwise. -/
structure Depends (component : Component) (effect : Effect) : Prop where
  nodup : effect.dependencies.Nodup
  reactive : ∀ name ∈ effect.dependencies, name ∈ component.reactiveNames
  mount : effect.trigger = .mount → effect.dependencies = []
  fetch : effect.trigger = .fetch → ∀ name ∈ component.reactiveNames,
    (name ∈ effect.dependencies ↔ name ∈ Identifier.referenced effect.code)

/-- The effect listens for the event of the handler, and depends on the states that the handler
refers to and on the one that stands for whether the element that listens is shown. -/
structure DependsOnHandler (component : Component) (handler : Handler) (effect : Effect) :
    Prop where
  trigger : effect.trigger = .event handler.event
  dependencies : ∀ name ∈ component.reactiveNames,
    (name ∈ effect.dependencies ↔ name ∈ Identifier.referenced handler.body ∨
      ∃ identifier, handler.target = .reference identifier ∧
        ShownFirst component.reactiveStates (handler.parent.getD handler.selector) name)

end Component

namespace Draft

theorem listenerOwner?_eq_some_iff {handler : Handler} {owner : String} :
    listenerOwner? handler = some owner ↔
      ∃ identifier, handler.target = .reference identifier ∧
        handler.parent.getD handler.selector = owner := by
  rw [listenerOwner?]
  cases handler.target <;> simp

variable {draft : Draft}

theorem Registered.nodup_reactiveNames (registered : draft.Registered) :
    draft.finish.reactiveNames.Nodup := by
  have distinct := registered.distinct
  rw [identifiers, List.append_assoc, List.append_assoc] at distinct
  exact (List.nodup_append.mp distinct).1.sublist (List.filter_sublist.map _)

theorem KeepsCode.depends {effect : PendingEffect} (keeps : KeepsCode effect)
    (registered : draft.Registered) : draft.finish.Depends (resolve draft.states effect) := by
  refine ⟨nodup_dependencies registered.nodup_reactiveNames,
    fun name member => reactive_of_mem_dependencies member, ?_, ?_⟩
  · intro mount
    have noOwner := keeps.owner (congrArg Trigger.isEvent mount)
    rw [dependencies_resolve, readNames, shownNames, keeps.mount mount, noOwner]
    rfl
  · intro fetch name reactive
    have noOwner := keeps.owner (congrArg Trigger.isEvent fetch)
    rw [mem_dependencies_resolve, keeps.fetch fetch, noOwner]
    constructor
    · rintro (⟨code, same, _, read⟩ | ⟨owner, impossible, _⟩)
      · cases same
        exact read
      · cases impossible
    · exact fun read => .inl ⟨_, rfl, reactive, read⟩

theorem KeepsHandler.depends {handler : Handler} {effect : PendingEffect}
    (keeps : KeepsHandler handler effect) :
    draft.finish.DependsOnHandler handler (resolve draft.states effect) := by
  refine ⟨keeps.trigger, ?_⟩
  intro name reactive
  rw [mem_dependencies_resolve, keeps.reads, keeps.owner]
  constructor
  · rintro (⟨code, same, _, read⟩ | ⟨owner, owns, shown⟩)
    · cases same
      exact .inl read
    · rcases listenerOwner?_eq_some_iff.mp owns with ⟨identifier, target, rfl⟩
      exact .inr ⟨identifier, target, shown⟩
  · rintro (read | ⟨identifier, target, shown⟩)
    · exact .inl ⟨_, rfl, reactive, read⟩
    · exact .inr ⟨_, listenerOwner?_eq_some_iff.mpr ⟨identifier, target, rfl⟩, shown⟩

end Draft

/-- In the component that any operations lead to, every effect depends on states that can change,
on none of them twice, and on the right ones.  For a listener these are the states that its handler
refers to and the one that stands for whether the element that listens is shown. -/
theorem performAll_dependencies (name source : String) (operations : List Draft.Operation) :
    let component := ((Draft.new name source).performAll operations).finish
    (∀ effect ∈ component.effects, component.Depends effect) ∧
      List.Forall₂ component.DependsOnHandler component.handlers component.listenerEffects := by
  intro component
  have registered := Draft.registered_performAll name source operations
  have keeps := Draft.keepsSources_performAll name source operations
  refine ⟨?_, ?_⟩
  · intro effect member
    rcases List.mem_map.mp member with ⟨pending, among, rfl⟩
    exact (keeps.effects pending among).depends registered
  · rw [Draft.listenerEffects_finish, List.forall₂_map_right_iff]
    exact keeps.listeners.imp fun _ _ kept => kept.depends

/-- A listener is attached anew when its element is shown, also if the state for that is added
after the handler; the handler reads a constant and a state. -/
example :
    let draft := (Draft.new "Panel" "panel.js").performAll
      [.addState ⟨"LIMIT", "5", .constant, none⟩,
        .addHandler ⟨"#panel", "click", "handlePanelClick", "event", "show(count, LIMIT);", none,
          .reference "panelRef", false⟩ "",
        .addState ⟨"panelVisible", "false", .reactive, some ⟨".panel", .visibility⟩⟩,
        .addState ⟨"count", "0", .reactive, none⟩]
    draft.finish.effects.map (·.dependencies) = [["count", "panelVisible"]] := by
  decide +kernel

end Hookify
