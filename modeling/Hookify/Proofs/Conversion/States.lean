import Hookify.Proofs.Conversion.Component
import Hookify.Proofs.Pass.Coverage
import Hookify.Proofs.Renderer.Setters

namespace Hookify

open Script Selection

/-!
# The states that code sets

The code of a component sets states that the facts about the script promise:
one for each facet that the script writes, and one for each variable that
changes.  Whether a state is there in the end is decided by the passes, which
give a name to the first that asks for it.

A promised state is there unless one of three things has its name: a constant of
the script, something that is called, or a selection for which the script has a
variable.  The first two take the name away from a state that asks for it later;
the third has no state of its own.
-/

/-- Why a component may lack a state that its code sets. -/
inductive Component.Lacks (component : Component) (facts : Facts) (name : String) : Prop where
  /-- The script declares a constant of that name. -/
  | constant (declared : name ∈ facts.declared) (plain : facts.alias? name = none)
      (constant : facts.classify name = .constant)
  /-- A handler or a function has the name. -/
  | code (named : component.NamesCode name)
  /-- A variable of that name stands for a selection, and no facet that is written has it. -/
  | selection (stands : facts.alias? name ≠ none) (unwritten : name ∉ facts.mutated)

namespace Pass

variable {tree : Node}

/-- A chain that is replaced writes what the facts count as written. -/
theorem mem_mutated_of_chain {place : Place} (inside : place ∈ (Facts.ofTree tree).root.walk)
    (kind : place.kind = .callExpression) (head : isHead place = true) {chain : Chain}
    (chained : (Facts.ofTree tree).chain? place = some chain) {name : String}
    (written : name ∈ mutatedBy chain) : name ∈ (Facts.ofTree tree).mutated := by
  rcases mem_mutatedBy.mp written with ⟨call, effective, facet, selector, role, target, same⟩
  have listed : (place, chain) ∈
      chainsIn (Facts.ofTree tree).aliases (Facts.ofTree tree).root := by
    refine List.mem_filterMap.mpr ⟨place, inside, ?_⟩
    rw [kind, head, if_pos (by rfl)]
    exact Option.map_eq_some_iff.mpr ⟨chain, chained, rfl⟩
  exact mem_mutated.mpr ⟨selector, facet, ⟨place, chain, call, listed, effective, role, target⟩, same⟩

/-- What the passes have made of a draft. -/
structure Finished (tree : Node) (draft : Draft) : Prop where
  named : draft.WellNamed
  origins : HasOrigins (Facts.ofTree tree) draft
  declared : ∀ state ∈ variableStates (Facts.ofTree tree),
    Declares (Facts.ofTree tree) state.identifier draft
  written : ∀ name ∈ (Facts.ofTree tree).mutated, name ∈ draft.identifiers

theorem finished_runAll (tree : Node) {draft : Draft} (blank : draft.Blank) :
    Finished tree (Stage.runAll (Facts.ofTree tree) draft) := by
  have steps := steps_runAll (Facts.ofTree tree) draft
  refine ⟨steps.wellNamed blank.wellNamed, steps.hasOrigins blank, ?_, ?_⟩
  · intro state member
    have others := steps_stages (Facts.ofTree tree)
      [.startup, .listeners, .requests, .animations, .functions, .mutations, .references]
      (declarations (Facts.ofTree tree) draft)
    exact (declares_declarations member blank).extend others.extends
  · intro name member
    rcases mem_mutated.mp member with ⟨selector, facet, writes, rfl⟩
    have before := steps_stages (Facts.ofTree tree)
      [.declarations, .startup, .listeners, .requests, .animations, .functions] draft
    exact (runs_references _).steps.extends.identifiers
      (mem_identifiers_mutations writes (before.registered blank.registered))

namespace Finished

variable {draft : Draft} (finished : Finished tree draft) {name : String}

include finished

/-- A state with the name of a variable that stands for no selection has the kind of the
variable. -/
theorem kind_eq (declared : name ∈ (Facts.ofTree tree).declared)
    (plain : (Facts.ofTree tree).alias? name = none) {state : StateVariable}
    (member : state ∈ draft.states) (same : state.identifier = name) :
    state.kind = (Facts.ofTree tree).classify name := by
  rcases exists_variableState declared plain with ⟨variableState, listed, rfl⟩
  rcases finished.declared variableState listed with ⟨other, inside, named, kind⟩
  have unique : draft.states.filter (·.identifier == other.identifier) = [other] := by
    have distinct := finished.named.distinct
    rw [Draft.identifiers, List.append_assoc, List.append_assoc] at distinct
    exact filter_eq_singleton (List.nodup_append.mp distinct).1 inside
  have found : state ∈ draft.states.filter (·.identifier == other.identifier) :=
    List.mem_filter.mpr ⟨member, beq_iff_eq.mpr (same.trans named.symm)⟩
  rw [unique, List.mem_singleton] at found
  rw [found, kind]

/-- A reactive state has a name that no constant has, nothing that is called, and no selection. -/
theorem not_lacks {state : StateVariable} (member : state ∈ draft.finish.reactiveStates)
    (same : state.identifier = name) : ¬ draft.finish.Lacks (Facts.ofTree tree) name := by
  rcases List.mem_filter.mp member with ⟨among, reactive⟩
  have isReactive : state.kind = .reactive := beq_iff_eq.mp reactive
  intro lacks
  cases lacks with
  | constant declared plain constant =>
      have kind := finished.kind_eq declared plain among same
      rw [isReactive, constant] at kind
      cases kind
  | code named =>
      have listed : name ∈ draft.states.map (·.identifier) :=
        List.mem_map.mpr ⟨state, among, same⟩
      exact finished.named.not_namesCode (List.mem_append_left _ listed) named
  | selection stands unwritten =>
      cases finished.origins state among with
      | declared listed =>
          rcases mem_variableStates.mp listed with ⟨_, _, _, _, _, found⟩
          exact stands (same ▸ (variableState?_eq_some found).2.1)
      | owning selector facet writes named reactive =>
          exact unwritten (mem_mutated.mpr ⟨selector, facet, writes, same.symm.trans named⟩)

/-- A state is reactive unless a constant has its name. -/
theorem reactive_of_named {state : StateVariable} (among : state ∈ draft.states)
    (same : state.identifier = name)
    (present : ¬ draft.finish.Lacks (Facts.ofTree tree) name) : state.kind = .reactive := by
  cases finished.origins state among with
  | declared listed =>
      rcases mem_variableStates.mp listed with ⟨_, _, _, _, _, found⟩
      rcases variableState?_eq_some found with ⟨_, plain, kind⟩
      have declared := mem_declared_of_variableStates listed
      rw [same] at declared plain kind
      cases classified : (Facts.ofTree tree).classify name with
      | reactive => rw [kind, classified]
      | constant => exact absurd (.constant declared plain classified) present
  | owning selector facet writes named reactive => exact reactive

/-- A facet that the script writes has a state, unless the name went to something that is called:
no reference is named like a state. -/
theorem exists_reactive_of_written (written : name ∈ (Facts.ofTree tree).mutated)
    (present : ¬ draft.finish.Lacks (Facts.ofTree tree) name) :
    ∃ state ∈ draft.finish.reactiveStates, state.identifier = name := by
  rcases Draft.mem_identifiers.mp (finished.written name written) with
    ⟨state, among, same⟩ | ⟨reference, among, same⟩ | handler | function
  · have reactive := finished.reactive_of_named among same present
    exact ⟨state, List.mem_filter.mpr ⟨among, beq_iff_eq.mpr reactive⟩, same⟩
  · rcases mem_mutated.mp written with ⟨selector, facet, _, named⟩
    have numbered := finished.named.numbered reference among
    rw [same, named] at numbered
    exact absurd numbered (Identifier.not_isNumbered_state selector _ facet)
  · exact absurd (.code (.inl handler)) present
  · exact absurd (.code (.inr function)) present

/-- A variable that changes has a state, unless it stands for a selection. -/
theorem exists_reactive_of_variable
    (reactive : (Facts.ofTree tree).isReactiveVariable name = true)
    (present : ¬ draft.finish.Lacks (Facts.ofTree tree) name) :
    ∃ state ∈ draft.finish.reactiveStates, state.identifier = name := by
  rw [Facts.isReactiveVariable, Bool.and_eq_true, List.contains_iff_mem, beq_iff_eq] at reactive
  rcases reactive with ⟨declared, classified⟩
  by_cases plain : (Facts.ofTree tree).alias? name = none
  · rcases exists_variableState declared plain with ⟨variableState, listed, rfl⟩
    rcases finished.declared variableState listed with ⟨state, among, same, kind⟩
    refine ⟨state, List.mem_filter.mpr ⟨among, beq_iff_eq.mpr ?_⟩, same⟩
    rw [kind, classified]
  · by_cases written : name ∈ (Facts.ofTree tree).mutated
    · exact finished.exists_reactive_of_written written present
    · exact absurd (.selection plain written) present

/-- If the facts promise a reactive state, there is one with the name exactly if nothing stands in
its way. -/
theorem exists_reactive_iff (promised : name ∈ (Facts.ofTree tree).mutated ∨
      (Facts.ofTree tree).isReactiveVariable name = true) :
    (∃ state ∈ draft.finish.reactiveStates, state.identifier = name) ↔
      ¬ draft.finish.Lacks (Facts.ofTree tree) name := by
  constructor
  · rintro ⟨state, member, same⟩
    exact finished.not_lacks member same
  · intro present
    rcases promised with written | reactive
    · exact finished.exists_reactive_of_written written present
    · exact finished.exists_reactive_of_variable reactive present

end Finished

end Pass

/-- Wherever the code that replaces a node sets a state, the component has that state, and it can
change, unless a constant, something that is called, or a selection has its name. -/
theorem declares_set_state_iff (document : Document) (settings : Settings) (tree : Node)
    (this : Option String) {place : Place} (inside : place ∈ (Place.ofRoot tree).walk)
    {name : String} (sets : name ∈ (Renderer.of (Facts.ofTree tree) this).setNames place) :
    let component := document.componentOf settings tree
    (Renderer.of (Facts.ofTree tree) this).SetsAt place name ∧
      ((∃ state ∈ component.reactiveStates, state.identifier = name) ↔
        ¬ component.Lacks (Facts.ofTree tree) name) := by
  intro component
  rcases Renderer.setsAt_of_mem_setNames sets with ⟨setsAt, reason⟩
  have promised : name ∈ (Facts.ofTree tree).mutated ∨
      (Facts.ofTree tree).isReactiveVariable name = true := by
    rcases reason with ⟨kind, head, chain, chained, written⟩ | reactive
    · exact .inl (Pass.mem_mutated_of_chain inside kind head chained written)
    · exact .inr reactive
  exact ⟨setsAt, (Pass.finished_runAll tree (document.blank_draft settings)).exists_reactive_iff
    promised⟩

/-- A script that writes the text of an element has the state that its code sets. -/
theorem declares_set_state_of_written_text :
    let document := Document.new "$('#a').text('x');" ⟨"text.js"⟩
    let tree := parse document.script
    ∃ place ∈ (Place.ofRoot tree).walk,
      "aText" ∈ (Renderer.of (Facts.ofTree tree) none).setNames place ∧
        (Renderer.of (Facts.ofTree tree) none).SetsAt place "aText" ∧
        ∃ state ∈ (document.componentOf {} tree).reactiveStates, state.identifier = "aText" := by
  intro document tree
  have run : (∃ place ∈ (Place.ofRoot tree).walk,
        "aText" ∈ (Renderer.of (Facts.ofTree tree) none).setNames place) ∧
      "aText" ∉ (Facts.ofTree tree).declared ∧ "aText" ∈ (Facts.ofTree tree).mutated ∧
      ¬ (document.componentOf {} tree).NamesCode "aText" := by
    decide +kernel
  rcases run with ⟨⟨place, inside, sets⟩, noVariable, written, free⟩
  have present : ¬ (document.componentOf {} tree).Lacks (Facts.ofTree tree) "aText" := by
    intro lacks
    cases lacks with
    | constant declared plain constant => exact noVariable declared
    | code named => exact free named
    | selection stands unwritten => exact unwritten written
  rcases declares_set_state_iff document {} tree none inside sets with ⟨setsAt, declares⟩
  exact ⟨place, inside, sets, setsAt, declares.mpr present⟩

/-- A constant takes the name of the state for the text of an element: the code still sets that
state, and the component has none. -/
theorem not_declares_set_state_of_constant :
    let document := Document.new "var statusText = 'x';\n$('#status').text('Saved');" ⟨"status.js"⟩
    let tree := parse document.script
    let component := document.componentOf {} tree
    (∃ place ∈ (Place.ofRoot tree).walk,
      "statusText" ∈ (Renderer.of (Facts.ofTree tree) none).setNames place) ∧
      "setStatusText('Saved');" ∈ component.effects.map (·.code) ∧
      ¬ ∃ state ∈ component.reactiveStates, state.identifier = "statusText" := by
  decide +kernel

end Hookify
