import Hookify.Proofs.Conversion.Component
import Hookify.Proofs.Pass.Owners
import Hookify.Proofs.Pass.Selectors

namespace Hookify

open Script Selection

/-!
# Selectors, references and the states of elements

A component lists the selectors of its script as they are written, and has one
reference for all selectors with the same key.  The states of an element are
found by the key as well, so that the reference of a state is unique, although
the selector of the reference need not be the one that the state was made for.
-/

/-!
## The states of elements

A component has at most one state for a facet of an element, where elements are
told apart by the keys of their selectors.  Whether code sets a state is decided
with the names that the facts have collected; that there is such a state is due
to the pass on changes.  Both follow the same calls, on any tree and through
variables that stand for selections.
-/

namespace Draft

/-- The names of states that own facets are names of states. -/
theorem sublist_identifiers {states : List StateVariable}
    (named : ∀ state ∈ states, ∀ purpose, state.purpose = some purpose →
      state.identifier = Identifier.state purpose.selector purpose.facet) :
    ((states.filterMap (·.purpose)).map fun purpose =>
      Identifier.state purpose.selector purpose.facet).Sublist (states.map (·.identifier)) := by
  induction states with
  | nil => exact List.Sublist.slnil
  | cons first rest ih =>
      have others := ih fun state member => named state (List.mem_cons_of_mem first member)
      cases owns : first.purpose with
      | none =>
          rw [List.filterMap_cons_none owns]
          exact others.cons _
      | some purpose =>
          rw [List.filterMap_cons_some owns, List.map_cons, List.map_cons,
            named first List.mem_cons_self purpose owns]
          exact others.cons_cons _

/-- No two states own the same facet of the same element. -/
theorem nodup_purposes {draft : Draft} (registered : draft.Registered)
    (named : ∀ state ∈ draft.states, ∀ purpose, state.purpose = some purpose →
      state.identifier = Identifier.state purpose.selector purpose.facet) :
    ((draft.states.filterMap (·.purpose)).map fun purpose =>
      (Identifier.selectorKey purpose.selector, purpose.facet)).Nodup := by
  have distinct := registered.distinct
  rw [identifiers, List.append_assoc, List.append_assoc] at distinct
  have names := (List.nodup_append.mp distinct).1.sublist (sublist_identifiers named)
  apply List.Nodup.of_map (fun owned : String × Facet => owned.1 ++ owned.2.suffix)
  rw [List.map_map]
  exact names

end Draft

/-- The facts and the pass on changes agree.  The names that the facts count as written are those of
the states that the pass asks for, which it does at the same calls; after the pass each of them is
in use.  The states that own facets are told apart by the key of the element and the facet, from
which they are named, and a state for visibility starts hidden exactly if the first call that shows
or hides the element shows it. -/
theorem owned_states_agree (document : Document) (settings : Settings) (tree : Node) :
    let facts := Facts.ofTree tree
    let before := Pass.changesDraft facts (document.draft settings)
    let after := Pass.mutations facts before
    let component := document.componentOf settings tree
    (after.states = (Pass.withStates before (Pass.askedStates facts)).states ∧
      after.taken = (Pass.withStates before (Pass.askedStates facts)).taken) ∧
    (∀ name, facts.isMutated name = true ↔
      ∃ state ∈ Pass.askedStates facts, state.identifier = name) ∧
    (∀ state ∈ Pass.askedStates facts, after.isTaken state.identifier = true) ∧
    ((component.states.filterMap (·.purpose)).map fun purpose =>
      (Identifier.selectorKey purpose.selector, purpose.facet)).Nodup ∧
    (∀ state ∈ component.states, ∀ purpose, state.purpose = some purpose →
      state.identifier = Identifier.state purpose.selector purpose.facet) ∧
    ∀ state ∈ component.states, ∀ selector, state.purpose = some ⟨selector, .visibility⟩ →
      (state.initial = "false" ↔
        (Pass.visibilityCalls facts (Identifier.selectorKey selector)).head?.map (·.name) =
          some "show") := by
  intro facts before after component
  have blank := document.blank_draft settings
  have same : Pass.SameStates after (Pass.withStates before (Pass.askedStates facts)) :=
    Pass.sameStates_mutations (Pass.registered_changesDraft blank)
  have named : ∀ state ∈ component.states, ∀ purpose, state.purpose = some purpose →
      state.identifier = Identifier.state purpose.selector purpose.facet :=
    fun _ member _ owns => (Pass.writes_of_mem_states_runAll blank member owns).2
  have registered : (Stage.runAll facts (document.draft settings)).Registered :=
    (Pass.steps_runAll facts (document.draft settings)).registered blank.registered
  refine ⟨⟨same.states, same.taken⟩, ?_, ?_, Draft.nodup_purposes registered named, named, ?_⟩
  · intro name
    rw [Facts.isMutated, List.contains_iff_mem]
    exact Pass.mem_mutated_iff_asked
  · intro state asked
    rw [Draft.isTaken_iff_mem, same.taken]
    exact Pass.mem_taken_withStates (.inr ⟨state, asked, rfl⟩)
  · intro state member selector owns
    exact Pass.initial_eq_false_iff blank member owns

/-! ## Keys of references -/

namespace Component

/-- The keys of the references of a component. -/
def referenceKeys (component : Component) : List String :=
  component.references.map fun reference => Identifier.selectorKey reference.selector

theorem mem_statesOf {component : Component} {reference : Reference} {state : StateVariable}
    {purpose : Purpose} (owns : state.purpose = some purpose) :
    state ∈ component.statesOf reference ↔ state ∈ component.states ∧
      Identifier.selectorKey purpose.selector = Identifier.selectorKey reference.selector := by
  rw [statesOf, List.mem_filter, owns, beq_iff_eq]

/-- If the key of a state is the key of some reference, the state belongs to one reference. -/
theorem existsUnique_reference {component : Component} (distinct : component.referenceKeys.Nodup)
    {state : StateVariable} (member : state ∈ component.states) {purpose : Purpose}
    (owns : state.purpose = some purpose)
    (referred : Identifier.selectorKey purpose.selector ∈ component.referenceKeys) :
    ∃! reference, reference ∈ component.references ∧ state ∈ component.statesOf reference := by
  rcases List.mem_map.mp referred with ⟨reference, listed, sameKey⟩
  refine ⟨reference, ⟨listed, (mem_statesOf owns).mpr ⟨member, sameKey.symm⟩⟩, ?_⟩
  rintro other ⟨otherListed, belongs⟩
  have otherKey := ((mem_statesOf owns).mp belongs).2
  exact List.inj_on_of_nodup_map distinct otherListed listed (otherKey.symm.trans sameKey.symm)

end Component

section Conversion

variable (document : Document) (settings : Settings) (tree : Node)

theorem mem_referenceKeys_iff (key : String) :
    key ∈ (document.componentOf settings tree).referenceKeys ↔
      ∃ selector, Pass.Selects tree selector ∧ Identifier.selectorKey selector = key := by
  constructor
  · intro listed
    rcases List.mem_map.mp listed with ⟨reference, member, same⟩
    have blank := document.blank_draft settings
    exact ⟨reference.selector,
      Pass.selects_of_mem_references_runAll blank.references reference member, same⟩
  · rintro ⟨selector, selects, rfl⟩
    rcases Pass.covers_runAll selects with ⟨reference, member, same⟩
    exact List.mem_map.mpr ⟨reference, member, same⟩

theorem selectors_componentOf : (document.componentOf settings tree).selectors =
    ((Place.ofRoot tree).walk.filterMap Pass.selectorAt?).foldl Pass.note [] := by
  have noSelectors : (document.draft settings).selectors = [] := by
    rw [Document.draft]
    cases document.kind <;> rfl
  exact Pass.selectors_runAll noSelectors

end Conversion

/-- The references of a component differ in the keys of their selectors, and these are the keys of
what the script selects.  The selectors are listed as the script has them, each once and in the
order in which they occur first.  Every state that owns a facet of an element belongs to exactly one
reference. -/
theorem references_cover_selectors (document : Document) (settings : Settings) (tree : Node) :
    let component := document.componentOf settings tree
    component.referenceKeys.Nodup ∧
    (∀ key, key ∈ component.referenceKeys ↔
      ∃ selector, Pass.Selects tree selector ∧ Identifier.selectorKey selector = key) ∧
    component.selectors.Nodup ∧
    (∀ selector, selector ∈ component.selectors ↔ Pass.Selects tree selector) ∧
    component.selectors.Pairwise (fun first second =>
      Pass.firstRead Pass.selectorAt? (Place.ofRoot tree).walk first <
        Pass.firstRead Pass.selectorAt? (Place.ofRoot tree).walk second) ∧
    ∀ state ∈ component.states, state.purpose.isSome = true →
      ∃! reference, reference ∈ component.references ∧ state ∈ component.statesOf reference := by
  intro component
  have blank := document.blank_draft settings
  have distinct : component.referenceKeys.Nodup :=
    ((Pass.steps_runAll (Facts.ofTree tree) (document.draft settings)).wellNamed
      blank.wellNamed).keys
  have selectors := selectors_componentOf document settings tree
  have ordered : component.selectors.Pairwise fun first second =>
      Pass.firstRead Pass.selectorAt? (Place.ofRoot tree).walk first <
        Pass.firstRead Pass.selectorAt? (Place.ofRoot tree).walk second := by
    rw [selectors]
    exact Pass.pairwise_foldl_note (Place.ofRoot tree).walk
  refine ⟨distinct, mem_referenceKeys_iff document settings tree, ?_, ?_, ordered, ?_⟩
  · apply ordered.imp
    rintro first second before rfl
    exact Nat.lt_irrefl _ before
  · intro selector
    rw [selectors, Pass.mem_foldl_note, or_iff_right List.not_mem_nil]
    exact Pass.mem_selectorsOf_iff
  · intro state member isOwner
    rcases Option.isSome_iff_exists.mp isOwner with ⟨purpose, owns⟩
    have writes := (Pass.writes_of_mem_states_runAll blank member owns).1
    exact Component.existsUnique_reference distinct member owns
      ((mem_referenceKeys_iff document settings tree _).mpr
        ⟨_, Pass.selects_of_writes writes, rfl⟩)

end Hookify
