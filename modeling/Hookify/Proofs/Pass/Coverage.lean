import Hookify.Proofs.Pass.Origins

namespace Hookify
namespace Pass

open Script Selection

/-!
# What the passes achieve

Three passes go through the script to provide names for others to use.  After
the first, every variable has a state, unless it stands for a selection.  After
the changes of elements have been recorded, every facet that the script writes
has a name in the draft.  After the last, every selector has a reference.
-/

/-! ## One thing after the other -/

theorem extends_foldl {Item : Type} {add : Draft → Item → Draft} {items : List Item}
    (extended : ∀ item ∈ items, ∀ draft, Draft.Extends draft (add draft item)) :
    ∀ draft : Draft, draft.Extends (items.foldl add draft) := by
  induction items with
  | nil => exact Draft.Extends.refl
  | cons first rest ih =>
      intro draft
      have later := ih fun item member => extended item (List.mem_cons_of_mem first member)
      exact (extended first List.mem_cons_self draft).trans (later (add draft first))

/-- What adding one thing achieves, and later additions keep, is achieved for each thing. -/
theorem foldl_covers {Item : Type} {add : Draft → Item → Draft} {items : List Item}
    (invariant : Draft → Prop) (covered : Item → Draft → Prop)
    (extended : ∀ item ∈ items, ∀ draft, Draft.Extends draft (add draft item))
    (keeps : ∀ item ∈ items, ∀ draft, invariant draft → invariant (add draft item))
    (kept : ∀ {item : Item} {first second : Draft}, first.Extends second → covered item first →
      covered item second)
    (covers : ∀ item ∈ items, ∀ draft, invariant draft → covered item (add draft item))
    {item : Item} (member : item ∈ items) {draft : Draft} (holds : invariant draft) :
    covered item (items.foldl add draft) := by
  induction items generalizing draft with
  | nil => exact absurd member List.not_mem_nil
  | cons first rest ih =>
      have restExtended : ∀ other ∈ rest, ∀ draft, Draft.Extends draft (add draft other) :=
        fun other inside => extended other (List.mem_cons_of_mem first inside)
      rcases List.mem_cons.mp member with same | later
      · have achieved := covers first List.mem_cons_self draft holds
        exact kept (extends_foldl restExtended _) (same ▸ achieved)
      · have started := keeps first List.mem_cons_self draft holds
        exact ih restExtended (fun other inside => keeps other (List.mem_cons_of_mem first inside))
          (fun other inside => covers other (List.mem_cons_of_mem first inside)) later started

/-! ## Declared variables -/

section Variables

variable {facts : Facts}

/-- A state of the draft has the name, with the kind that the facts give it. -/
def Declares (facts : Facts) (name : String) (draft : Draft) : Prop :=
  ∃ state ∈ draft.states, state.identifier = name ∧ state.kind = facts.classify name

theorem Declares.extend {name : String} {first second : Draft} (extended : first.Extends second)
    (declares : Declares facts name first) : Declares facts name second := by
  rcases declares with ⟨state, member, same⟩
  exact ⟨state, extended.states.subset member, same⟩

/-- So far only variables of the script have names. -/
structure OnlyVariables (facts : Facts) (draft : Draft) : Prop extends draft.Registered where
  classified : ∀ state ∈ draft.states, state.kind = facts.classify state.identifier
  references : draft.references = []
  handlers : draft.handlers = []
  functions : draft.functions = []

theorem OnlyVariables.declares {draft : Draft} (only : OnlyVariables facts draft) {name : String}
    (taken : draft.isTaken name = true) : Declares facts name draft := by
  have member : name ∈ draft.identifiers := only.isTaken_iff.mp taken
  rw [Draft.identifiers, only.references, only.handlers, only.functions] at member
  simp only [List.map_nil, List.append_nil] at member
  rcases List.mem_map.mp member with ⟨state, inside, same⟩
  exact ⟨state, inside, same, same ▸ only.classified state inside⟩

theorem kind_of_mem_variableStates {state : StateVariable} (member : state ∈ variableStates facts) :
    state.kind = facts.classify state.identifier := by
  rcases mem_variableStates.mp member with ⟨_, _, _, _, _, found⟩
  exact (variableState?_eq_some found).2.2

theorem OnlyVariables.addState {draft : Draft} (only : OnlyVariables facts draft)
    {state : StateVariable} (member : state ∈ variableStates facts) :
    OnlyVariables facts (draft.addState state).1 := by
  rw [Draft.addState]
  split
  · exact only
  · rename_i free
    refine ⟨only.toRegistered.withState (mt Draft.isTaken_iff_mem.mpr free), ?_, only.references,
      only.handlers, only.functions⟩
    intro other inside
    rcases List.mem_append.mp inside with earlier | added
    · exact only.classified other earlier
    · exact List.mem_singleton.mp added ▸ kind_of_mem_variableStates member

theorem OnlyVariables.declares_addState {draft : Draft} (only : OnlyVariables facts draft)
    {state : StateVariable} (member : state ∈ variableStates facts) :
    Declares facts state.identifier (draft.addState state).1 := by
  rw [Draft.addState]
  split
  · rename_i taken
    exact only.declares taken
  · exact ⟨state, List.mem_append_right _ (List.mem_singleton.mpr rfl), rfl,
      kind_of_mem_variableStates member⟩

theorem onlyVariables_of_blank {draft : Draft} (blank : draft.Blank) :
    OnlyVariables facts draft := by
  refine ⟨blank.registered, ?_, blank.references, blank.handlers, blank.functions⟩
  rw [blank.states]
  exact fun _ absent => absurd absent List.not_mem_nil

section States

variable {states : List StateVariable}

theorem extends_addStates (listed : ∀ state ∈ states, state ∈ variableStates facts)
    (draft : Draft) :
    draft.Extends (states.foldl (fun draft state => (draft.addState state).1) draft) :=
  extends_foldl (fun state member draft =>
    Steps.extends (steps_addState (.declared (listed state member)) draft)) draft

/-- After some of the variables have been added, each of them has a state. -/
theorem declares_addStates (listed : ∀ state ∈ states, state ∈ variableStates facts)
    {state : StateVariable} (member : state ∈ states) {draft : Draft} (blank : draft.Blank) :
    Declares facts state.identifier
      (states.foldl (fun draft state => (draft.addState state).1) draft) := by
  refine foldl_covers (OnlyVariables facts) (fun state => Declares facts state.identifier) ?_ ?_
    Declares.extend ?_ member (onlyVariables_of_blank blank)
  · intro other among draft
    exact Steps.extends (steps_addState (.declared (listed other among)) draft)
  · exact fun other among _ only => only.addState (listed other among)
  · exact fun other among _ only => only.declares_addState (listed other among)

end States

theorem declares_declarations {state : StateVariable} (member : state ∈ variableStates facts)
    {draft : Draft} (blank : draft.Blank) :
    Declares facts state.identifier (declarations facts draft) :=
  declares_addStates (fun _ listed => listed) member blank

end Variables

/-! ## Facets that are written -/

section Facets

variable {facts : Facts}

theorem mem_callsToTraversal {call : MethodCall} {calls : List MethodCall}
    (member : call ∈ calls.takeWhile (·.role != .traversal)) : call ∈ callsToTraversal calls := by
  induction calls with
  | nil => exact member
  | cons first rest ih =>
      rw [List.takeWhile_cons] at member
      split at member
      · rename_i stays
        have kept : ¬ (first.role == .traversal) = true := by simpa using stays
        rw [callsToTraversal, if_neg kept]
        rcases List.mem_cons.mp member with same | later
        · exact same ▸ List.mem_cons_self
        · exact List.mem_cons_of_mem first (ih later)
      · exact absurd member List.not_mem_nil

theorem mem_identifiers_addOwningState (selector method : String) (facet : Facet) {draft : Draft}
    (registered : draft.Registered) :
    Identifier.state selector facet ∈ (addOwningState selector method facet draft).identifiers := by
  rw [addOwningState]
  split
  · rename_i found
    rcases Option.isSome_iff_exists.mp found with ⟨state, found⟩
    have same := List.find?_some found
    exact Draft.mem_identifiers.mpr (.inl ⟨state, List.mem_of_find?_eq_some found,
      by simpa using same⟩)
  · rw [Draft.addState]
    split
    · rename_i taken
      exact registered.isTaken_iff.mp taken
    · exact Draft.mem_identifiers.mpr (.inl ⟨_, List.mem_append_right _
        (List.mem_singleton.mpr rfl), rfl⟩)

/-- Recording a call that writes a facet gives the state of the facet a name. -/
theorem mem_identifiers_recordCall (head : Place) {selector : String} {facet : Facet}
    {call : MethodCall} (role : call.role = .mutation facet) {draft : Draft}
    (registered : draft.Registered) :
    Identifier.state selector facet ∈
      (recordCall facts head (.selector selector) draft call).identifiers := by
  rw [recordCall, role]
  exact mem_identifiers_addOwningState selector call.name facet
    ⟨registered.taken, registered.distinct⟩

theorem mem_identifiers_mutations {selector : String} {facet : Facet}
    (writes : facts.Writes selector facet) {draft : Draft} (registered : draft.Registered) :
    Identifier.state selector facet ∈ (mutations facts draft).identifiers := by
  rcases writes with ⟨head, chain, call, chained, effective, role, target⟩
  have recorded : ∀ start : Draft, start.Registered → Identifier.state selector facet ∈
      ((callsToTraversal chain.calls).foldl (recordCall facts head chain.target) start).identifiers := by
    intro start registered
    refine foldl_covers Draft.Registered
      (fun other draft => other = call → Identifier.state selector facet ∈ draft.identifiers)
      ?_ ?_ ?_ ?_ (mem_callsToTraversal effective) registered rfl
    · exact fun other listed draft => (runs_recordCall chained listed draft).steps.extends
    · exact fun other listed draft => (runs_recordCall chained listed draft).steps.registered
    · exact fun extended covered same => extended.identifiers (covered same)
    · intro other _ draft registered same
      rw [same, target]
      exact mem_identifiers_recordCall head role registered
  have chainSteps : ∀ {other : Place × Chain}, other ∈ chainsIn facts.aliases facts.root → ∀ draft,
      Steps facts draft ((callsToTraversal other.2.calls).foldl
        (recordCall facts other.1 other.2.target) draft) :=
    fun listed draft => (Runs.foldl (fun _ among => runs_recordCall listed among) draft).steps
  refine foldl_covers Draft.Registered
    (fun other draft => other = (head, chain) →
      Identifier.state selector facet ∈ draft.identifiers) ?_ ?_ ?_ ?_ chained registered rfl
  · exact fun other listed draft => Steps.extends (chainSteps listed draft)
  · exact fun other listed draft => Steps.registered (chainSteps listed draft)
  · exact fun extended covered same => extended.identifiers (covered same)
  · intro other _ draft registered same
    rw [same]
    exact recorded draft registered

end Facets

/-! ## Selectors -/

/-- The draft has a reference to the element of the selector. -/
def Covers (selector : String) (draft : Draft) : Prop :=
  ∃ reference ∈ draft.references,
    Identifier.selectorKey reference.selector = Identifier.selectorKey selector

theorem covers_ensureReferenceNamed (draft : Draft) (selector wanted : String) :
    Covers selector (draft.ensureReferenceNamed selector wanted).1 := by
  rw [Draft.ensureReferenceNamed]
  split
  · rename_i reference found
    have same := List.find?_some found
    exact ⟨reference, List.mem_of_find?_eq_some found, by simpa using same⟩
  · exact ⟨_, List.mem_append_right _ (List.mem_singleton.mpr rfl), rfl⟩

theorem covers_references {facts : Facts} {selector : String} (member : selector ∈ selectorsOf facts)
    (draft : Draft) : Covers selector (references facts draft) := by
  refine foldl_covers (fun _ => True) Covers ?_ ?_ ?_ ?_ member trivial
  · intro selector _ draft
    have selected : Steps facts draft (draft.addSelector selector) := steps_addSelector selector draft
    exact Steps.extends (selected.trans (steps_ensureReferenceNamed selector _))
  · exact fun _ _ _ _ => trivial
  · rintro selector first second extended ⟨reference, among, same⟩
    exact ⟨reference, extended.references.subset among, same⟩
  · exact fun selector _ draft _ => covers_ensureReferenceNamed _ selector _

theorem mem_selectorsOf {tree : Node} {value : Place}
    (inside : value ∈ (Facts.ofTree tree).root.walk) {selector : String}
    (target : directTarget? value = some (.selector selector)) :
    selector ∈ selectorsOf (Facts.ofTree tree) :=
  List.mem_filterMap.mpr ⟨value, inside, by rw [target]⟩

end Pass
end Hookify
