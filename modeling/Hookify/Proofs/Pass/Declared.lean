import Hookify.Proofs.Facts.Declarations
import Hookify.Proofs.Pass.Coverage

namespace Hookify

open Script

/-!
# The order of declarations

The first pass goes through the declarations of all scopes and adds a state for
each variable that is neither a function nor a selection.  Of several
declarations of one name the first that makes a state counts.  So the states
stand in the order of these declarations, and if an initialiser only uses what
has been declared before it, what it uses has a state before its own.
-/

/-- The names that a place uses, at or below it. -/
def usedIn (place : Place) : List String :=
  place.walk.filterMap usedName?

namespace Facts

/-- The variables that scopes declare, with their initialisers, in the order of the scopes. -/
def declaredVariables (facts : Facts) : List (String × Option Place) :=
  (facts.statements.filter (·.kind.isVariables)).flatMap declarators

/-- The state that a declaration makes. -/
def stateOf? (facts : Facts) (declared : String × Option Place) : Option StateVariable :=
  Pass.variableState? facts (Renderer.of facts none) declared.1 declared.2

/-- Every initialiser uses no declared variable but those that have been declared before. -/
def DeclaresFirst (facts : Facts) : Prop :=
  ∀ entry ∈ facts.declaredVariables.zipIdx, ∀ value ∈ entry.1.2, ∀ used ∈ usedIn value,
    used ∈ facts.declaredVariables.map (·.1) → used ∈ (facts.declaredVariables.take entry.2).map (·.1)

instance (facts : Facts) : Decidable facts.DeclaresFirst :=
  inferInstanceAs (Decidable (∀ entry ∈ facts.declaredVariables.zipIdx, _))

/-- The first declaration of a name that makes a state. -/
def declaration? (facts : Facts) (name : String) : Option (String × Option Place) :=
  facts.declaredVariables.find? fun declared => declared.1 == name && (facts.stateOf? declared).isSome

/-- The same declaration, with the place of the name. -/
def stateDeclaration? (facts : Facts) (name : String) : Option (Place × Option Place) :=
  facts.scopeDeclarations.find? fun declared => declared.1.text == name &&
    (facts.stateOf? (declared.1.text, declared.2)).isSome

/-- The initialiser of a variable uses another one, all declarations of which make states. -/
structure Relies (facts : Facts) (name other : String) : Prop where
  uses : ∃ value, facts.declaration? name = some (name, some value) ∧ other ∈ usedIn value
  declared : other ∈ facts.declaredVariables.map (·.1)
  plain : ∀ entry ∈ facts.declaredVariables, entry.1 = other → (facts.stateOf? entry).isSome = true

end Facts

namespace Pass

variable {facts : Facts} {state other : StateVariable}

theorem variableStates_eq (facts : Facts) :
    variableStates facts = facts.declaredVariables.filterMap facts.stateOf? := by
  rw [variableStates, Facts.declaredVariables, List.filterMap_flatMap]
  rfl

theorem identifier_of_stateOf? {entry : String × Option Place}
    (found : facts.stateOf? entry = some state) : state.identifier = entry.1 := by
  rw [Facts.stateOf?, variableState?] at found
  split at found
  · cases found
  · rw [← Option.some.inj found]

/-- Only the states that are added take names. -/
theorem mem_taken_foldl {states : List StateVariable} {draft : Draft} {name : String}
    (member : name ∈ (states.foldl (fun draft state => (draft.addState state).1) draft).taken) :
    name ∈ draft.taken ∨ name ∈ states.map (·.identifier) := by
  induction states generalizing draft with
  | nil => exact .inl member
  | cons first rest ih =>
      rcases ih member with before | later
      · change name ∈ (draft.addState first).1.taken at before
        rw [Draft.addState] at before
        split at before
        · exact .inl before
        · rcases List.mem_cons.mp before with same | earlier
          · exact .inr (same ▸ List.mem_cons_self)
          · exact .inl earlier
      · exact .inr (List.mem_cons_of_mem _ later)

section First

variable {before after : List StateVariable}
  (split : variableStates facts = before ++ state :: after)
  (first : state.identifier ∉ before.map (·.identifier)) {draft : Draft} (blank : draft.Blank)

include split first blank

/-- A state that is the first to ask for its name is added behind those before it. -/
theorem sublist_states_declarations :
    ((before.foldl (fun draft state => (draft.addState state).1) draft).states ++ [state]).Sublist
      (declarations facts draft).states := by
  let middle := before.foldl (fun draft state => (draft.addState state).1) draft
  have free : ¬ middle.isTaken state.identifier = true := by
    intro taken
    rcases mem_taken_foldl (Draft.isTaken_iff_mem.mp taken) with blankTaken | named
    · rw [blank.taken] at blankTaken
      exact absurd blankTaken List.not_mem_nil
    · exact first named
  have added : (middle.addState state).1 = middle.withState state := by
    rw [Draft.addState, if_neg free]
  have others : ∀ item ∈ after, item ∈ variableStates facts := fun item member =>
    split ▸ List.mem_append_right _ (List.mem_cons_of_mem state member)
  have later := extends_addStates others (middle.withState state)
  rw [declarations, split, List.foldl_append, List.foldl_cons]
  change (middle.states ++ [state]).Sublist
    (after.foldl (fun draft state => (draft.addState state).1) (middle.addState state).1).states
  rw [added]
  exact later.states.sublist

theorem mem_states_declarations : state ∈ (declarations facts draft).states :=
  (sublist_states_declarations split first blank).subset
    (List.mem_append_right _ (List.mem_singleton.mpr rfl))

/-- It stands behind one for each earlier name. -/
theorem sublist_declarations (earlier : other ∈ before) :
    ∃ named, named.identifier = other.identifier ∧
      [named, state].Sublist (declarations facts draft).states := by
  have listed : ∀ item ∈ before, item ∈ variableStates facts := fun item member =>
    split ▸ List.mem_append_left _ member
  obtain ⟨named, member, same, _⟩ := declares_addStates listed earlier blank
  refine ⟨named, same, List.Sublist.trans ?_ (sublist_states_declarations split first blank)⟩
  exact (List.singleton_sublist.mpr member).append (List.Sublist.refl [state])

end First

/-- The first declaration of a name that makes a state makes the first state of that name. -/
theorem variableStates_of_declarations {before after : List (String × Option Place)}
    {name : String} {value : Option Place}
    (split : facts.declaredVariables = before ++ (name, value) :: after)
    (others : ∀ entry ∈ before, (! (entry.1 == name && (facts.stateOf? entry).isSome)) = true)
    (isMade : facts.stateOf? (name, value) = some state) :
    variableStates facts = before.filterMap facts.stateOf? ++
        state :: after.filterMap facts.stateOf? ∧
      state.identifier ∉ (before.filterMap facts.stateOf?).map (·.identifier) := by
  refine ⟨?_, fun member => ?_⟩
  · rw [variableStates_eq, split, List.filterMap_append, List.filterMap_cons_some isMade]
  · obtain ⟨twin, isTwin, same⟩ := List.mem_map.mp member
    obtain ⟨entry, inside, found⟩ := List.mem_filterMap.mp isTwin
    rw [identifier_of_stateOf? found, identifier_of_stateOf? isMade] at same
    have none := others entry inside
    rw [same, found] at none
    simp at none

/-- What an initialiser relies on has a state before that of the variable. -/
theorem sublist_of_relies (ordered : facts.DeclaresFirst)
    (relies : facts.Relies state.identifier other.identifier) {draft : Draft}
    (blank : draft.Blank) :
    ∃ first second, first.identifier = other.identifier ∧
      second.identifier = state.identifier ∧
        [first, second].Sublist (declarations facts draft).states := by
  obtain ⟨⟨value, declares, uses⟩, declared, plain⟩ := relies
  obtain ⟨makes, before, after, split, others⟩ := List.find?_eq_some_iff_append.mp declares
  rw [Bool.and_eq_true] at makes
  obtain ⟨made, isMade⟩ := Option.isSome_iff_exists.mp makes.2
  -- The use is covered by a declaration that stands before this one.
  have covered : other.identifier ∈ before.map (·.1) := by
    have entry : ((state.identifier, some value), before.length) ∈
        facts.declaredVariables.zipIdx :=
      List.mem_zipIdx_iff_getElem?.mpr (by simp [split])
    have used := ordered _ entry value rfl other.identifier uses declared
    rwa [split, List.take_left' rfl] at used
  obtain ⟨⟨_, init⟩, inBefore, rfl⟩ := List.mem_map.mp covered
  obtain ⟨usedState, isUsed⟩ := Option.isSome_iff_exists.mp
    (plain _ (split ▸ List.mem_append_left _ inBefore) rfl)
  obtain ⟨states, first⟩ := variableStates_of_declarations split others isMade
  obtain ⟨named, same, ordered⟩ := sublist_declarations states first blank
    (List.mem_filterMap.mpr ⟨_, inBefore, isUsed⟩)
  exact ⟨named, made, same.trans (identifier_of_stateOf? isUsed), identifier_of_stateOf? isMade,
    ordered⟩

/-! ## The declaration that makes a state -/

theorem declaredVariables_eq (facts : Facts) :
    facts.declaredVariables =
      facts.scopeDeclarations.map fun (place, value) => (place.text, value) := by
  rw [Facts.declaredVariables, Facts.scopeDeclarations, List.map_flatMap]
  induction facts.statements with
  | nil => rfl
  | cons statement rest ih =>
      rw [List.flatMap_cons, ← ih, declaredBy, List.filter_cons]
      split
      · rw [List.flatMap_cons, declarators_eq]
      · rfl

theorem declaration?_eq (facts : Facts) (name : String) :
    facts.declaration? name =
      (facts.stateDeclaration? name).map fun (place, value) => (place.text, value) := by
  rw [Facts.declaration?, declaredVariables_eq, List.find?_map]
  rfl

/-- The state that a declaration makes first is added. -/
theorem mem_states_of_stateDeclaration? {place : Place} {value : Option Place} {name : String}
    (found : facts.stateDeclaration? name = some (place, value)) {draft : Draft}
    (blank : draft.Blank) :
    place.text = name ∧ ∃ state ∈ (declarations facts draft).states,
      facts.stateOf? (name, value) = some state := by
  have declares : facts.declaration? name = some (place.text, value) := by
    rw [declaration?_eq, found]
    rfl
  obtain ⟨makes, before, after, split, others⟩ := List.find?_eq_some_iff_append.mp declares
  rw [Bool.and_eq_true, beq_iff_eq] at makes
  obtain ⟨named, made⟩ := makes
  dsimp only at named
  rw [named] at made split
  obtain ⟨state, isMade⟩ := Option.isSome_iff_exists.mp made
  obtain ⟨states, first⟩ := variableStates_of_declarations split others isMade
  exact ⟨named, state, mem_states_declarations states first blank, isMade⟩

end Pass
end Hookify
