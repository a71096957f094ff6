import Hookify.Proofs.Identifier.Form
import Hookify.Proofs.Pass.ChainRecords

namespace Hookify

open Script Selection

/-!
# States that own facets

A call that changes an element asks for the state that owns the changed facet.
The facts collect the names of these states on a walk of their own, over the
calls before the first that leads to other elements; the pass on changes goes
through the calls until it meets that one.

What the pass asks for is put into one list here.  A state is added only if its
name is free, so the first request for a name decides, and the later ones are
without effect.  Since no suffix of a facet ends in another one, two requests
have the same name only if they are for the same facet of the same element.
-/

namespace Pass

/-! ## Requests for states -/

section Requests

variable (facts : Facts)

/-- The state that a call asks for: one that owns the facet that it changes. -/
def askedState? (target : Target) (call : MethodCall) : Option StateVariable :=
  match call.role with
  | .mutation facet =>
      match target with
      | .selector selector => some (owningState selector call.name facet)
      | _ => none
  | _ => none

/-- The states that the pass on changes asks for, in the order in which it comes to the calls. -/
def askedStates : List StateVariable :=
  (chainsIn facts.aliases facts.root).flatMap fun (_, chain) =>
    (callsToTraversal chain.calls).filterMap (askedState? chain.target)

/-- A call of a chain with the target changes whether the element with the key is shown. -/
def showsOrHides (key : String) (target : Target) (call : MethodCall) : Bool :=
  match target with
  | .selector selector =>
      Identifier.selectorKey selector == key && call.role == .mutation .visibility
  | _ => false

/-- The calls that change whether the element with the key is shown, in the same order. -/
def visibilityCalls (key : String) : List MethodCall :=
  (chainsIn facts.aliases facts.root).flatMap fun (_, chain) =>
    chain.effective.filter (showsOrHides key chain.target)

end Requests

section Asked

variable {facts : Facts}

theorem askedState?_eq_some {target : Target} {call : MethodCall} {state : StateVariable} :
    askedState? target call = some state ↔ ∃ selector facet, target = .selector selector ∧
      call.role = .mutation facet ∧ state = owningState selector call.name facet := by
  rw [askedState?]
  constructor
  · intro asked
    split at asked
    · rename_i facet role
      cases target with
      | selector selector => exact ⟨selector, facet, rfl, role, (Option.some.inj asked).symm⟩
      | page object => cases asked
      | this => cases asked
    · cases asked
  · rintro ⟨selector, facet, rfl, role, rfl⟩
    rw [role]

/-- Calls that ask for a state are among the effective ones, up to wherever the pass goes. -/
theorem filterMap_callsToTraversal (target : Target) (chain : Chain) :
    (callsToTraversal chain.calls).filterMap (askedState? target) =
      chain.effective.filterMap (askedState? target) := by
  rcases callsToTraversal_eq chain.calls with ⟨rest, same, traversals⟩
  have nothing : rest.filterMap (askedState? target) = [] := by
    rw [List.filterMap_eq_nil_iff]
    intro call member
    rw [askedState?, traversals call member]
  rw [same, List.filterMap_append, nothing, List.append_nil, Chain.effective]

theorem mem_askedStates {state : StateVariable} :
    state ∈ askedStates facts ↔ ∃ head chain call,
      (head, chain) ∈ chainsIn facts.aliases facts.root ∧
      call ∈ chain.effective ∧ askedState? chain.target call = some state := by
  simp only [askedStates, filterMap_callsToTraversal, List.mem_flatMap, List.mem_filterMap,
    Prod.exists]
  constructor
  · rintro ⟨head, chain, listed, call, effective, asked⟩
    exact ⟨head, chain, call, listed, effective, asked⟩
  · rintro ⟨head, chain, call, listed, effective, asked⟩
    exact ⟨head, chain, listed, call, effective, asked⟩

/-- What is asked for owns a facet that some call writes. -/
theorem writes_of_mem_askedStates {state : StateVariable} (asked : state ∈ askedStates facts) :
    ∃ selector method facet, facts.Writes selector facet ∧
      state = owningState selector method facet := by
  rcases mem_askedStates.mp asked with ⟨head, chain, call, listed, effective, same⟩
  rcases askedState?_eq_some.mp same with ⟨selector, facet, target, role, rfl⟩
  exact ⟨selector, call.name, facet, ⟨head, chain, call, listed, effective, role, target⟩, rfl⟩

/-- The facts count a name as written exactly if the pass on changes asks for a state of that
name. -/
theorem mem_mutated_iff_asked {tree : Node} {name : String} :
    name ∈ (Facts.ofTree tree).mutated ↔
      ∃ state ∈ askedStates (Facts.ofTree tree), state.identifier = name := by
  rw [mem_mutated]
  constructor
  · rintro ⟨selector, facet, ⟨head, chain, call, listed, effective, role, target⟩, rfl⟩
    have asked : askedState? chain.target call = some (owningState selector call.name facet) :=
      askedState?_eq_some.mpr ⟨selector, facet, target, role, rfl⟩
    exact ⟨_, mem_askedStates.mpr ⟨head, chain, call, listed, effective, asked⟩, rfl⟩
  · rintro ⟨state, asked, rfl⟩
    rcases writes_of_mem_askedStates asked with ⟨selector, method, facet, writes, rfl⟩
    exact ⟨selector, facet, writes, rfl⟩

/-! ## The pass as a list of requests -/

/-- A draft that has been asked for states one after the other. -/
def withStates (draft : Draft) (states : List StateVariable) : Draft :=
  states.foldl (fun draft state => (draft.addState state).1) draft

theorem withStates_append (draft : Draft) (states others : List StateVariable) :
    withStates draft (states ++ others) = withStates (withStates draft states) others :=
  List.foldl_append

/-- Two drafts have the same states and names in use, and the states use their names. -/
structure SameStates (first second : Draft) : Prop where
  states : first.states = second.states
  taken : first.taken = second.taken
  named : ∀ state ∈ first.states, state.identifier ∈ first.taken

theorem SameStates.addState {first second : Draft} (same : SameStates first second)
    (state : StateVariable) : SameStates (first.addState state).1 (second.addState state).1 := by
  have sameTaken : first.isTaken state.identifier = second.isTaken state.identifier := by
    rw [Draft.isTaken, Draft.isTaken, same.taken]
  rw [Draft.addState, Draft.addState, sameTaken]
  split
  · exact same
  · refine ⟨?_, ?_, ?_⟩
    · rw [Draft.withState, Draft.withState, same.states]
    · rw [Draft.withState, Draft.withState, same.taken]
    · intro other member
      rcases List.mem_append.mp member with earlier | added
      · exact List.mem_cons_of_mem _ (same.named other earlier)
      · exact List.mem_singleton.mp added ▸ List.mem_cons_self

/-- Looking for a state first makes no difference: the name of a state is in use. -/
theorem addOwningState_eq {draft : Draft}
    (named : ∀ state ∈ draft.states, state.identifier ∈ draft.taken)
    (selector method : String) (facet : Facet) :
    addOwningState selector method facet draft =
      (draft.addState (owningState selector method facet)).1 := by
  rw [addOwningState]
  split
  · rename_i found
    rcases Option.isSome_iff_exists.mp found with ⟨state, found⟩
    have sameName : state.identifier = Identifier.state selector facet := by
      simpa using List.find?_some found
    have taken := named state (List.mem_of_find?_eq_some found)
    rw [sameName] at taken
    rw [Draft.addState, owningState, if_pos (Draft.isTaken_iff_mem.mpr taken)]
  · rfl

theorem sameStates_recordCall {first second : Draft} (same : SameStates first second)
    (head : Place) (target : Target) (call : MethodCall) :
    SameStates (recordCall facts head target first call)
      (withStates second (askedState? target call).toList) := by
  have warned : ∀ warning, SameStates (first.addWarning warning) second := by
    intro warning
    rw [Draft.addWarning]
    split
    · exact same
    · exact ⟨same.states, same.taken, same.named⟩
  have recorded : ∀ mutation, SameStates (first.addMutation mutation) second :=
    fun _ => ⟨same.states, same.taken, same.named⟩
  rw [recordCall, askedState?]
  cases call.role with
  | mutation facet =>
      cases target with
      | selector selector =>
          dsimp only
          rw [addOwningState_eq (recorded _).named]
          exact (recorded _).addState _
      | page object => exact recorded _
      | this => exact recorded _
  | binding =>
      dsimp only
      split
      · exact same
      · exact warned _
  | traversal => exact warned _
  | unknown => exact warned _
  | _ => exact same

/-- If each item has the effect of some requests, all items have the effect of all requests. -/
theorem sameStates_foldl {Item : Type} {items : List Item} {add : Draft → Item → Draft}
    {asked : Item → List StateVariable}
    (each : ∀ item ∈ items, ∀ first second, SameStates first second →
      SameStates (add first item) (withStates second (asked item)))
    {first second : Draft} (same : SameStates first second) :
    SameStates (items.foldl add first) (withStates second (items.flatMap asked)) := by
  induction items generalizing first second with
  | nil => exact same
  | cons item rest ih =>
      rw [List.foldl_cons, List.flatMap_cons, withStates_append]
      exact ih (fun other member => each other (List.mem_cons_of_mem item member))
        (each item List.mem_cons_self first second same)

/-- As far as states and names are concerned, the pass on changes only asks for states. -/
theorem sameStates_mutations {draft : Draft} (registered : draft.Registered) :
    SameStates (mutations facts draft) (withStates draft (askedStates facts)) := by
  have start : SameStates draft draft := by
    refine ⟨rfl, rfl, fun state member => ?_⟩
    exact registered.taken.mem_iff.mpr (Draft.mem_identifiers.mpr (.inl ⟨state, member, rfl⟩))
  refine sameStates_foldl (fun found _ first second same => ?_) start
  have calls : (callsToTraversal found.2.calls).filterMap (askedState? found.2.target) =
      (callsToTraversal found.2.calls).flatMap fun call =>
        (askedState? found.2.target call).toList := by
    rw [List.filterMap_eq_flatMap_toList]
  dsimp only
  rw [calls]
  exact sameStates_foldl (fun call _ first second same =>
    sameStates_recordCall same found.1 found.2.target call) same

/-! ## The first request decides -/

theorem mem_taken_withStates {states : List StateVariable} {name : String} {draft : Draft}
    (known : name ∈ draft.taken ∨ ∃ state ∈ states, state.identifier = name) :
    name ∈ (withStates draft states).taken := by
  induction states generalizing draft with
  | nil => exact known.elim id fun ⟨_, absent, _⟩ => absurd absent List.not_mem_nil
  | cons first rest ih =>
      apply ih
      have kept : name ∈ draft.taken ∨ first.identifier = name →
          name ∈ (draft.addState first).1.taken := by
        rw [Draft.addState]
        split
        · rename_i taken
          rintro (earlier | rfl)
          · exact earlier
          · exact Draft.isTaken_iff_mem.mp taken
        · rintro (earlier | rfl)
          · exact List.mem_cons_of_mem _ earlier
          · exact List.mem_cons_self
      rcases known with earlier | ⟨state, member, same⟩
      · exact .inl (kept (.inl earlier))
      · rcases List.mem_cons.mp member with rfl | later
        · exact .inl (kept (.inr same))
        · exact .inr ⟨state, later, same⟩

/-- A state that has been added is the first one that was asked for under its name, which was
free. -/
theorem find?_of_mem_withStates {states : List StateVariable} {state : StateVariable}
    {draft : Draft} (member : state ∈ (withStates draft states).states) :
    state ∈ draft.states ∨ state.identifier ∉ draft.taken ∧
      states.find? (·.identifier == state.identifier) = some state := by
  induction states generalizing draft with
  | nil => exact .inl member
  | cons first rest ih =>
      have asked : state ∈ (draft.addState first).1.states ∨
          state.identifier ∉ (draft.addState first).1.taken ∧
            rest.find? (·.identifier == state.identifier) = some state := ih member
      rw [Draft.addState] at asked
      split at asked
      · rename_i taken
        apply asked.imp_right
        rintro ⟨free, found⟩
        refine ⟨free, ?_⟩
        have other : (first.identifier == state.identifier) = false := by
          rw [beq_eq_false_iff_ne]
          exact fun same => free (same ▸ Draft.isTaken_iff_mem.mp taken)
        rw [List.find?_cons, other]
        exact found
      · rename_i untaken
        rcases asked with listed | ⟨free, found⟩
        · rcases List.mem_append.mp listed with earlier | added
          · exact .inl earlier
          · have same := List.mem_singleton.mp added
            refine .inr ⟨?_, ?_⟩
            · rw [same]
              exact mt Draft.isTaken_iff_mem.mpr untaken
            · rw [same]
              exact List.find?_cons_of_pos (beq_self_eq_true _)
        · have other : (first.identifier == state.identifier) = false := by
            rw [beq_eq_false_iff_ne]
            exact fun same => free (same ▸ List.mem_cons_self)
          refine .inr ⟨fun earlier => free (List.mem_cons_of_mem _ earlier), ?_⟩
          rw [List.find?_cons, other]
          exact found

/-! ## Visibility -/

theorem initial_askedState? (selector : String) (target : Target) (call : MethodCall) :
    ((askedState? target call).toList.filter
        (·.identifier == Identifier.state selector .visibility)).map (·.initial) =
      if showsOrHides (Identifier.selectorKey selector) target call then
        [firstValue .visibility call.name]
      else [] := by
  cases target with
  | page object => rw [askedState?]; cases call.role <;> rfl
  | this => rw [askedState?]; cases call.role <;> rfl
  | selector other =>
      rw [askedState?, showsOrHides]
      cases call.role with
      | mutation facet =>
          by_cases same : Identifier.state other facet = Identifier.state selector .visibility
          · rcases Identifier.state_eq_iff.mp same with ⟨sameKey, rfl⟩
            simp [owningState, same, sameKey]
          · have other : ¬ (Identifier.selectorKey other = Identifier.selectorKey selector ∧
                facet = .visibility) := mt Identifier.state_eq_iff.mpr same
            simp [owningState, same]
            simpa using other
      | _ => simp

/-- The first values that are asked for under the name of a visibility, in order. -/
theorem initial_askedStates (selector : String) :
    ((askedStates facts).filter
        (·.identifier == Identifier.state selector .visibility)).map (·.initial) =
      (visibilityCalls facts (Identifier.selectorKey selector)).map
        fun call => firstValue .visibility call.name := by
  have chainCalls : ∀ (target : Target) (calls : List MethodCall),
      ((calls.filterMap (askedState? target)).filter
          (·.identifier == Identifier.state selector .visibility)).map (·.initial) =
        (calls.filter (showsOrHides (Identifier.selectorKey selector) target)).map
          fun call => firstValue .visibility call.name := by
    intro target calls
    induction calls with
    | nil => rfl
    | cons call rest ih =>
        have apart : (call :: rest).filterMap (askedState? target) =
            (askedState? target call).toList ++ rest.filterMap (askedState? target) := by
          rw [List.filterMap_cons]
          cases askedState? target call <;> rfl
        rw [apart, List.filter_append, List.map_append, initial_askedState?, ih, List.filter_cons]
        split <;> rfl
  rw [askedStates, visibilityCalls, List.filter_flatMap, List.map_flatMap, List.map_flatMap]
  apply List.flatMap_congr
  rintro ⟨head, chain⟩ _
  dsimp only
  rw [filterMap_callsToTraversal]
  exact chainCalls chain.target chain.effective

theorem firstValue_visibility_eq_iff (method : String) :
    firstValue .visibility method = "false" ↔ method = "show" := by
  by_cases shown : method = "show"
  · rw [shown]
    exact iff_of_true rfl rfl
  · simp [firstValue, shown, Facet.initial]

/-! ## The result -/

/-- The draft to which the pass on changes is applied. -/
def changesDraft (facts : Facts) (draft : Draft) : Draft :=
  functions facts (functionsDraft facts draft)

theorem purpose_of_mem_variableStates {state : StateVariable}
    (member : state ∈ variableStates facts) : state.purpose = none := by
  rcases mem_variableStates.mp member with ⟨_, _, _, _, _, found⟩
  rw [variableState?] at found
  split at found
  · cases found
  · rw [← Option.some.inj found]

section Result

variable {draft : Draft}

theorem registered_changesDraft (blank : draft.Blank) :
    (changesDraft facts draft).Registered := by
  have steps : Steps facts draft (changesDraft facts draft) :=
    steps_stages facts (Stage.all.take 6) draft
  exact steps.registered blank.registered

/-- A state of the component that owns a facet is the first one that the pass on changes asks for
under its name. -/
theorem find?_of_mem_states_runAll (blank : draft.Blank) {state : StateVariable}
    (member : state ∈ (Stage.runAll facts draft).states) {purpose : Purpose}
    (owns : state.purpose = some purpose) :
    (askedStates facts).find? (·.identifier == state.identifier) = some state := by
  have kept : (Stage.runAll facts draft).states =
      (mutations facts (changesDraft facts draft)).states :=
    states_runStages [.references] (by decide) (by decide) _
  have before : (changesDraft facts draft).states = (functionsDraft facts draft).states :=
    states_runStages [.functions] (by decide) (by decide) _
  rw [kept, (sameStates_mutations (registered_changesDraft blank)).states] at member
  rcases find?_of_mem_withStates member with earlier | ⟨_, found⟩
  · have declared := states_functionsDraft blank.states state (before ▸ earlier)
    rw [purpose_of_mem_variableStates declared] at owns
    cases owns
  · exact found

theorem writes_of_mem_states_runAll (blank : draft.Blank) {state : StateVariable}
    (member : state ∈ (Stage.runAll facts draft).states) {purpose : Purpose}
    (owns : state.purpose = some purpose) :
    facts.Writes purpose.selector purpose.facet ∧
      state.identifier = Identifier.state purpose.selector purpose.facet := by
  have asked := List.mem_of_find?_eq_some (find?_of_mem_states_runAll blank member owns)
  rcases writes_of_mem_askedStates asked with ⟨selector, method, facet, writes, rfl⟩
  rw [← Option.some.inj owns]
  exact ⟨writes, rfl⟩

/-- The state that owns the visibility of an element starts hidden exactly if the first call that
shows or hides the element shows it. -/
theorem initial_eq_false_iff (blank : draft.Blank) {state : StateVariable}
    (member : state ∈ (Stage.runAll facts draft).states) {selector : String}
    (owns : state.purpose = some ⟨selector, .visibility⟩) :
    state.initial = "false" ↔
      (visibilityCalls facts (Identifier.selectorKey selector)).head?.map (·.name) =
        some "show" := by
  have found := find?_of_mem_states_runAll blank member owns
  have named := (writes_of_mem_states_runAll blank member owns).2
  rw [named, ← List.head?_filter] at found
  have first : some state.initial =
      (visibilityCalls facts (Identifier.selectorKey selector)).head?.map
        fun call => firstValue .visibility call.name := by
    rw [← List.head?_map, ← initial_askedStates, List.head?_map, found]
    rfl
  cases call : (visibilityCalls facts (Identifier.selectorKey selector)).head? with
  | none =>
      rw [call] at first
      cases first
  | some call =>
      rw [call] at first
      rw [Option.some.inj first, firstValue_visibility_eq_iff]
      simp

end Result

end Asked

end Pass
end Hookify
