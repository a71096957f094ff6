import Hookify.Proofs.Facts.Inside
import Hookify.Proofs.Pass.Names

namespace Hookify
namespace Pass

open Script Selection

/-!
# Where names come from

The states of a draft are variables of the script or own a facet that the
script writes, and its functions are functions of the script.  A name that the
script gives to a variable is used by the script, and the names of states that
own facets end differently from the names of references.  Neither can be the
name that the facts choose for a reference, which the script does not use.
-/

/-! ## Variables -/

theorem mem_variableStates {facts : Facts} {state : StateVariable} :
    state ∈ variableStates facts ↔
      ∃ statement ∈ facts.statements, statement.kind.isVariables = true ∧
        ∃ value, (state.identifier, value) ∈ declarators statement ∧
          variableState? facts (Renderer.of facts none) state.identifier value = some state := by
  rw [variableStates, List.mem_flatMap]
  constructor
  · rintro ⟨statement, among, member⟩
    rw [List.mem_filter] at among
    rcases List.mem_filterMap.mp member with ⟨⟨name, value⟩, declares, same⟩
    have named : state.identifier = name := by
      dsimp only at same
      rw [variableState?] at same
      split at same
      · cases same
      · rw [← Option.some.inj same]
    rw [← named] at declares same
    exact ⟨statement, among.1, among.2, value, declares, same⟩
  · rintro ⟨statement, among, isVariables, value, declares, same⟩
    exact ⟨statement, List.mem_filter.mpr ⟨among, isVariables⟩,
      List.mem_filterMap.mpr ⟨_, declares, same⟩⟩

theorem variableState?_eq_some {facts : Facts} {renderer : Renderer} {name : String}
    {value : Option Place} {state : StateVariable}
    (found : variableState? facts renderer name value = some state) :
    (value.map (·.kind.isFunctionLike)).getD false = false ∧ facts.alias? name = none ∧
      state.kind = facts.classify name := by
  rw [variableState?] at found
  split at found
  · cases found
  · rename_i plain
    rw [Bool.or_eq_true, not_or, Bool.not_eq_true, Bool.not_eq_true, Option.isSome_eq_false_iff,
      Option.isNone_iff_eq_none] at plain
    rw [← Option.some.inj found]
    exact ⟨plain.1, plain.2, rfl⟩

/-- A variable that stands for no selection has a state. -/
theorem exists_variableState {tree : Node} {name : String}
    (declared : name ∈ (Facts.ofTree tree).declared)
    (plain : (Facts.ofTree tree).alias? name = none) :
    ∃ state ∈ variableStates (Facts.ofTree tree), state.identifier = name := by
  have bound := Facts.mem_declared.mp declared
  rcases Facts.exists_declarator_of_bound bound (fun _ => Bound.noConfusion) with
    ⟨statement, among, isVariables, value, declares, same⟩
  have noFunction := Facts.eq_variable_of_boundTo same
  have state : ∃ state, state.identifier = name ∧
      variableState? (Facts.ofTree tree) (Renderer.of (Facts.ofTree tree) none) name value =
        some state := by
    rw [variableState?, noFunction, plain]
    exact ⟨_, rfl, rfl⟩
  rcases state with ⟨state, named, found⟩
  refine ⟨state, mem_variableStates.mpr ⟨statement, among, isVariables, value, ?_, ?_⟩, named⟩
  · rw [named]
    exact declares
  · rw [named]
    exact found

/-- What has a state because of its declaration is declared as a variable. -/
theorem mem_declared_of_variableStates {tree : Node} {state : StateVariable}
    (member : state ∈ variableStates (Facts.ofTree tree)) :
    state.identifier ∈ (Facts.ofTree tree).declared := by
  rcases mem_variableStates.mp member with ⟨statement, among, isVariables, value, declares, found⟩
  rcases variableState?_eq_some found with ⟨noFunction, plain, _⟩
  have isBound := Facts.mem_bound_of_declarators among isVariables declares
  rw [Facts.mem_declared]
  cases bound : boundTo value with
  | function place => exact absurd noFunction (by simp [Facts.eq_function_of_boundTo bound])
  | selection selector =>
      rw [bound] at isBound
      exact absurd (Facts.mem_aliases.mpr isBound) (not_mem_of_find?_eq_none plain selector)
  | _ => exact bound ▸ isBound

/-! ## Facets -/

/-- The facts count a state as written if some call writes the facet that it owns. -/
theorem mem_mutated {tree : Node} {name : String} :
    name ∈ (Facts.ofTree tree).mutated ↔ ∃ selector facet,
      (Facts.ofTree tree).Writes selector facet ∧ name = Identifier.state selector facet := by
  change name ∈ ((chainsIn (Facts.ofTree tree).aliases (Facts.ofTree tree).root).map
    (·.2)).flatMap mutatedBy ↔ _
  rw [List.mem_flatMap]
  constructor
  · rintro ⟨chain, member, written⟩
    rcases List.mem_map.mp member with ⟨⟨head, _⟩, chained, rfl⟩
    rcases mem_mutatedBy.mp written with ⟨call, effective, facet, selector, role, target, same⟩
    exact ⟨selector, facet, ⟨head, _, call, chained, effective, role, target⟩, same⟩
  · rintro ⟨selector, facet, ⟨head, chain, call, chained, effective, role, target⟩, same⟩
    exact ⟨chain, List.mem_map.mpr ⟨_, chained, rfl⟩,
      mem_mutatedBy.mpr ⟨call, effective, facet, selector, role, target, same⟩⟩

/-! ## States -/

/-- Every state has a reason to be there. -/
def HasOrigins (facts : Facts) (draft : Draft) : Prop :=
  ∀ state ∈ draft.states, StateOrigin facts state

/-- Every function is one of the script. -/
def HasDefinitions (facts : Facts) (draft : Draft) : Prop :=
  ∀ function ∈ draft.functions, ∃ place,
    (function.name, place) ∈ facts.statements.flatMap definedFunctions

variable {facts : Facts} {first second : Draft}

theorem Step.hasOrigins (step : Step facts first second) (origins : HasOrigins facts first) :
    HasOrigins facts second := by
  cases step with
  | record same => rwa [HasOrigins, same.states]
  | state origin free =>
      intro state member
      rcases List.mem_append.mp member with earlier | added
      · exact origins state earlier
      · exact List.mem_singleton.mp added ▸ origin
  | reference missing => exact origins
  | handler binding parameters body listens => exact origins
  | function defined free => exact origins

theorem Step.hasDefinitions (step : Step facts first second)
    (definitions : HasDefinitions facts first) : HasDefinitions facts second := by
  cases step with
  | record same => rwa [HasDefinitions, same.functions]
  | state origin free => exact definitions
  | reference missing => exact definitions
  | handler binding parameters body listens => exact definitions
  | function defined free =>
      intro function member
      rcases List.mem_append.mp member with earlier | added
      · exact definitions function earlier
      · exact List.mem_singleton.mp added ▸ ⟨_, defined⟩

theorem Steps.hasOrigins (steps : Steps facts first second) (blank : first.Blank) :
    HasOrigins facts second := by
  refine steps.preserves (HasOrigins facts) Step.hasOrigins ?_
  rw [HasOrigins, blank.states]
  exact fun _ member => absurd member List.not_mem_nil

theorem Steps.hasDefinitions (steps : Steps facts first second) (blank : first.Blank) :
    HasDefinitions facts second := by
  refine steps.preserves (HasDefinitions facts) Step.hasDefinitions ?_
  rw [HasDefinitions, blank.functions]
  exact fun _ member => absurd member List.not_mem_nil

/-! ## Names of the script -/

variable {tree : Node}

theorem mem_names_of_variableStates {state : StateVariable}
    (member : state ∈ variableStates (Facts.ofTree tree)) :
    state.identifier ∈ (Facts.ofTree tree).names := by
  rcases mem_variableStates.mp member with ⟨statement, among, _, value, declares, _⟩
  rcases exists_name_of_declarators declares with ⟨place, inside, identifier, same⟩
  have onWalk := Place.mem_walk_trans (Facts.mem_walk_of_statements among) inside
  exact same ▸ Facts.mem_names_of_identifier onWalk identifier

/-- No state has the name that the facts choose for a reference. -/
theorem StateOrigin.identifier_ne {state : StateVariable}
    (origin : StateOrigin (Facts.ofTree tree) state) (selector : String) :
    state.identifier ≠ (Facts.ofTree tree).referenceName selector := by
  intro same
  cases origin with
  | declared member =>
      exact (Facts.ofTree tree).referenceName_not_mem selector
        (same ▸ mem_names_of_variableStates member)
  | owning owner facet writes named reactive =>
      have numbered := (Facts.ofTree tree).isNumbered_referenceName selector
      rw [← same, named] at numbered
      exact Identifier.not_isNumbered_state owner selector facet numbered

/-- The names of functions are identifiers, where functions are declared. -/
def NamesFunctions (tree : Node) : Prop :=
  ∀ place ∈ (Place.ofRoot tree).walk, place.kind.isFunctionDeclaration = true →
    ∀ name, place.child? .name = some name → name.kind = .identifier

/-- A function that a scope defines has a name that the script uses. -/
theorem mem_names_of_definedFunctions (named : NamesFunctions tree) {name : String} {function : Place}
    (member : (name, function) ∈ (Facts.ofTree tree).statements.flatMap definedFunctions) :
    name ∈ (Facts.ofTree tree).names := by
  rcases List.mem_flatMap.mp member with ⟨statement, among, defines⟩
  have inside := Facts.mem_walk_of_statements among
  rw [definedFunctions] at defines
  split at defines
  · rename_i declaration
    split at defines
    · rename_i place found
      have same := (Prod.mk.inj (List.mem_singleton.mp defines)).1
      have onWalk := Place.mem_walk_of_children inside (Place.mem_children_of_child? found)
      have identifier := named statement inside declaration place found
      exact same ▸ Facts.mem_names_of_identifier onWalk identifier
    · exact absurd defines List.not_mem_nil
  · split at defines
    · rcases List.mem_filterMap.mp defines with ⟨⟨key, value⟩, declares, found⟩
      rcases Option.map_eq_some_iff.mp found with ⟨_, _, same⟩
      rcases Prod.mk.inj same with ⟨rfl, _⟩
      rcases exists_name_of_declarators declares with ⟨place, onDeclaration, identifier, rfl⟩
      exact Facts.mem_names_of_identifier (Place.mem_walk_trans inside onDeclaration) identifier
    · exact absurd defines List.not_mem_nil

end Pass
end Hookify
