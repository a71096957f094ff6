import Hookify.Proofs.Conversion.Component
import Hookify.Proofs.Pass.Declared

namespace Hookify

open Script

/-!
# Declarations of a component

The body of a component begins with its constants, and its reactive states
follow.  Within each of the two groups the order is that in which the states
have been recorded.  A script that declares everything before it is used has the
uses recorded in this order too; but the groups are apart, and a constant whose
initialiser reads a variable that changes stands before it.
-/

/-! ## Pairs in order -/

section Pairs

variable {Item : Type} {first second : Item} {items others : List Item}

theorem pair_sublist_append : [first, second].Sublist (items ++ others) ↔
    [first, second].Sublist items ∨ (first ∈ items ∧ second ∈ others) ∨
      [first, second].Sublist others := by
  constructor
  · intro sublist
    obtain ⟨left, right, split, inItems, inOthers⟩ := List.sublist_append_iff.mp sublist
    match left, split with
    | [], split => exact .inr (.inr (split ▸ inOthers))
    | [_], split =>
        obtain ⟨rfl, rfl⟩ := List.cons.inj split
        exact .inr (.inl ⟨List.singleton_sublist.mp inItems, List.singleton_sublist.mp inOthers⟩)
    | [_, _], split =>
        obtain ⟨rfl, rest⟩ := List.cons.inj split
        obtain ⟨rfl, _⟩ := List.cons.inj rest
        exact .inl inItems
    | _ :: _ :: _ :: _, split => simp at split
  · rintro (inItems | ⟨isFirst, isSecond⟩ | inOthers)
    · exact inItems.trans (List.sublist_append_left _ _)
    · exact (List.singleton_sublist.mpr isFirst).append (List.singleton_sublist.mpr isSecond)
    · exact inOthers.trans (List.sublist_append_right _ _)

theorem pair_sublist_filter {keep : Item → Bool} : [first, second].Sublist (items.filter keep) ↔
    keep first = true ∧ keep second = true ∧ [first, second].Sublist items := by
  constructor
  · intro sublist
    have kept := fun item member => (List.mem_filter.mp (sublist.subset (a := item) member)).2
    exact ⟨kept first (by simp), kept second (by simp), sublist.trans List.filter_sublist⟩
  · rintro ⟨isFirst, isSecond, sublist⟩
    have kept := sublist.filter keep
    rwa [List.filter_cons_of_pos isFirst, List.filter_cons_of_pos isSecond, List.filter_nil] at kept

end Pairs

/-- The first value of the state mentions the other one. -/
def StateVariable.Mentions (state other : StateVariable) : Prop :=
  other.identifier ∈ Identifier.referenced state.initial

instance (state other : StateVariable) : Decidable (state.Mentions other) :=
  inferInstanceAs (Decidable (_ ∈ _))

namespace Component

/-- The states in the order in which the body declares them. -/
def declaredStates (component : Component) : List StateVariable :=
  component.constants ++ component.reactiveStates

/-- The first value of every state mentions only states that are declared before it. -/
def DeclaresBeforeUse (component : Component) : Prop :=
  ∀ state ∈ component.states, ∀ other ∈ component.states, state.Mentions other →
    [other, state].Sublist component.declaredStates

instance (component : Component) : Decidable component.DeclaresBeforeUse :=
  inferInstanceAs (Decidable (∀ state ∈ component.states, _))

section Order

variable {component : Component} {state other : StateVariable}

/-- A state is declared before another one if it is a constant and the other is none, or if they
are of one kind and it has been recorded first. -/
theorem pair_sublist_declaredStates (isState : state ∈ component.states)
    (isOther : other ∈ component.states) :
    [other, state].Sublist component.declaredStates ↔
      (other.kind = .constant ∧ state.kind = .reactive) ∨
        (other.kind = state.kind ∧ [other, state].Sublist component.states) := by
  have reactive : ∀ {found : StateVariable}, found.isReactive = true ↔ found.kind = .reactive :=
    beq_iff_eq
  rw [declaredStates, pair_sublist_append, constants, reactiveStates, pair_sublist_filter,
    pair_sublist_filter, List.mem_filter, List.mem_filter]
  simp only [Bool.not_eq_true', ← Bool.not_eq_true, reactive]
  cases other.kind <;> cases state.kind <;> simp [isState, isOther]

/-- The states are declared before they are mentioned exactly if no constant mentions a reactive
state, and states of one kind have been recorded before they are mentioned. -/
theorem declaresBeforeUse_iff : component.DeclaresBeforeUse ↔
    (∀ state ∈ component.constants, ∀ other ∈ component.reactiveStates, ¬ state.Mentions other) ∧
      ∀ state ∈ component.states, ∀ other ∈ component.states, state.kind = other.kind →
        state.Mentions other → [other, state].Sublist component.states := by
  have isConstant : ∀ {found : StateVariable},
      found ∈ component.constants ↔ found ∈ component.states ∧ found.kind = .constant := by
    intro found
    rw [constants, List.mem_filter, StateVariable.isReactive]
    cases found.kind <;> simp
  have isReactive : ∀ {found : StateVariable},
      found ∈ component.reactiveStates ↔ found ∈ component.states ∧ found.kind = .reactive := by
    intro found
    rw [reactiveStates, List.mem_filter, StateVariable.isReactive, beq_iff_eq]
  constructor
  · intro declares
    have before : ∀ {state other}, state ∈ component.states → other ∈ component.states →
        state.Mentions other → (other.kind = .constant ∧ state.kind = .reactive) ∨
          (other.kind = state.kind ∧ [other, state].Sublist component.states) :=
      fun isState isOther mentions =>
        (pair_sublist_declaredStates isState isOther).mp (declares _ isState _ isOther mentions)
    refine ⟨fun state constant other reactive mentions => ?_,
      fun state isState other isOther same mentions => ?_⟩
    · obtain ⟨isState, constant⟩ := isConstant.mp constant
      obtain ⟨isOther, reactive⟩ := isReactive.mp reactive
      rcases before isState isOther mentions with ⟨other, _⟩ | ⟨same, _⟩
      · exact absurd (reactive.symm.trans other) (by decide)
      · exact absurd (reactive.symm.trans (same.trans constant)) (by decide)
    · rcases before isState isOther mentions with ⟨constant, reactive⟩ | ⟨_, recorded⟩
      · exact absurd (reactive.symm.trans (same.trans constant)) (by decide)
      · exact recorded
  · rintro ⟨apart, recorded⟩ state isState other isOther mentions
    refine (pair_sublist_declaredStates isState isOther).mpr ?_
    cases kind : state.kind with
    | constant =>
        cases otherKind : other.kind with
        | constant =>
            have same := kind.trans otherKind.symm
            exact .inr ⟨rfl, recorded state isState other isOther same mentions⟩
        | reactive =>
            exact absurd mentions (apart state (isConstant.mpr ⟨isState, kind⟩) other
              (isReactive.mpr ⟨isOther, otherKind⟩))
    | reactive =>
        cases otherKind : other.kind with
        | constant => exact .inl ⟨rfl, rfl⟩
        | reactive =>
            have same := kind.trans otherKind.symm
            exact .inr ⟨rfl, recorded state isState other isOther same mentions⟩

end Order

end Component

section Order

variable (document : Document) (settings : Settings) (tree : Node)

/-- If an initialiser relies on a variable, the state of that variable has been recorded first. -/
theorem recorded_of_relies (ordered : (Facts.ofTree tree).DeclaresFirst)
    {state other : StateVariable} (isState : state ∈ (document.componentOf settings tree).states)
    (isOther : other ∈ (document.componentOf settings tree).states)
    (relies : (Facts.ofTree tree).Relies state.identifier other.identifier) :
    [other, state].Sublist (document.componentOf settings tree).states := by
  have blank := document.blank_draft settings
  have distinct : ((document.componentOf settings tree).states.map (·.identifier)).Nodup := by
    have named := ((Pass.steps_runAll (Facts.ofTree tree) _).wellNamed blank.wellNamed).distinct
    rw [Draft.identifiers, List.append_assoc, List.append_assoc] at named
    exact (List.nodup_append.mp named).1
  have others := Pass.steps_stages (Facts.ofTree tree) (Stage.all.drop 1)
    (Pass.declarations (Facts.ofTree tree) (document.draft settings))
  obtain ⟨first, second, isFirst, isSecond, recorded⟩ :=
    Pass.sublist_of_relies ordered relies blank
  have sublist := recorded.trans others.extends.states.sublist
  have same : ∀ {found : StateVariable}, found ∈ [first, second] → ∀ {wanted : StateVariable},
      wanted ∈ (document.componentOf settings tree).states →
        found.identifier = wanted.identifier → found = wanted := fun member _ isWanted named =>
    List.inj_on_of_nodup_map distinct (sublist.subset member) isWanted named
  rw [same (by simp) isOther isFirst, same (by simp) isState isSecond] at sublist
  exact sublist

/-- In a script that declares everything before it is used, the states of the component are declared
before they are mentioned exactly if no constant mentions a reactive state, and those have been
recorded in order that are of one kind and of which the one mentions the other without relying on it
in the script. -/
theorem declares_before_use_iff (ordered : (Facts.ofTree tree).DeclaresFirst) :
    let component := document.componentOf settings tree
    (∃ rest, Output.body component = Output.separated
        (component.constants.map Output.constant :: component.reactiveStates.map Output.reactive ::
          rest)) ∧
      (component.DeclaresBeforeUse ↔
        (∀ state ∈ component.constants, ∀ other ∈ component.reactiveStates,
          ¬ state.Mentions other) ∧
        ∀ state ∈ component.states, ∀ other ∈ component.states, state.kind = other.kind →
          state.Mentions other →
            ¬ (Facts.ofTree tree).Relies state.identifier other.identifier →
              [other, state].Sublist component.states) := by
  intro component
  refine ⟨⟨_, rfl⟩, Component.declaresBeforeUse_iff.trans (and_congr_right fun _ => ?_)⟩
  refine ⟨fun recorded state isState other isOther same mentions _ =>
    recorded state isState other isOther same mentions, ?_⟩
  intro recorded state isState other isOther same mentions
  by_cases relies : (Facts.ofTree tree).Relies state.identifier other.identifier
  · exact recorded_of_relies document settings tree ordered isState isOther relies
  · exact recorded state isState other isOther same mentions relies

end Order

/-- A counter that begins with a constant is declared behind it. -/
theorem declares_before_use_of_constant :
    let document := Document.new "var LIMIT = 10;\nvar count = LIMIT;\ncount = 2;" ⟨"count.js"⟩
    let tree := parse document.script
    let component := document.componentOf {} tree
    (Facts.ofTree tree).DeclaresFirst ∧ component.states.map (·.identifier) = ["LIMIT", "count"] ∧
      component.DeclaresBeforeUse := by
  intro document tree component
  have run : (Facts.ofTree tree).DeclaresFirst ∧
      component.states.map (·.identifier) = ["LIMIT", "count"] ∧
      (∀ state ∈ component.constants, ∀ other ∈ component.reactiveStates, ¬ state.Mentions other) ∧
      ∀ state ∈ component.states, ∀ other ∈ component.states, state.kind = other.kind →
        ¬ state.Mentions other := by
    decide +kernel
  obtain ⟨ordered, states, apart, silent⟩ := run
  refine ⟨ordered, states, (declares_before_use_iff document {} tree ordered).2.mpr ⟨apart, ?_⟩⟩
  exact fun state isState other isOther same mentions _ =>
    absurd mentions (silent state isState other isOther same)

/-- A constant whose initialiser reads a variable that changes is declared before that variable. -/
theorem not_declares_before_use_of_changed_variable :
    let document := Document.new "var a = 1;\nvar b = a + 1;\na = 2;" ⟨"order.js"⟩
    let tree := parse document.script
    let component := document.componentOf {} tree
    (Facts.ofTree tree).DeclaresFirst ∧
      component.states.map (fun state => (state.identifier, state.initial)) =
        [("a", "1"), ("b", "a + 1")] ∧
      component.declaredStates.map (·.identifier) = ["b", "a"] ∧ ¬ component.DeclaresBeforeUse := by
  decide +kernel

end Hookify
