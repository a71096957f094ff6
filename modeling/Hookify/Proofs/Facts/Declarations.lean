import Hookify.Proofs.Facts.Nest
import Hookify.Proofs.Script.Declarations

namespace Hookify

open Script Selection

/-!
# Declarations of scopes

What a scope declares belongs to its body, also by the rules of the language:
the body is the whole script or the body of a function.  So a name means such a
declaration if it stands in that body and nothing between declares the name.

The variables that stand for selections are among these declarations, and of
several with one name the last one counts, whatever scope it belongs to.
-/

namespace Script

/-- The places of the names that a declaration declares, with the initial values. -/
def declaratorPlaces (declaration : Place) : List (Place × Option Place) :=
  (declaration.namedChildren.filter (·.kind == .variableDeclarator)).filterMap fun declarator =>
    match declarator.child? .name with
    | some name => if name.kind == .identifier then some (name, declarator.child? .value) else none
    | none => none

/-- What a statement declares as variables. -/
def declaredBy (statement : Place) : List (Place × Option Place) :=
  if statement.kind.isVariables then declaratorPlaces statement else []

section Declarators

variable {declaration place : Place} {value : Option Place}

theorem declarators_eq (declaration : Place) :
    declarators declaration =
      (declaratorPlaces declaration).map fun (place, value) => (place.text, value) := by
  rw [declarators, declaratorPlaces, List.map_filterMap]
  refine List.filterMap_congr fun declarator _ => ?_
  cases declarator.child? .name with
  | none => rfl
  | some name => by_cases kind : (name.kind == .identifier) = true <;> simp [kind]

theorem exists_declarator_of_mem (member : (place, value) ∈ declaratorPlaces declaration) :
    ∃ declarator ∈ declaration.children, declarator.kind = .variableDeclarator ∧
      declarator.child? .name = some place ∧ declarator.child? .value = value ∧
        place.kind = .identifier := by
  obtain ⟨declarator, listed, found⟩ := List.mem_filterMap.mp member
  obtain ⟨named, kind⟩ := List.mem_filter.mp listed
  have child := Place.mem_children_of_namedChildren named
  split at found
  · rename_i name isName
    split at found
    · rename_i identifier
      obtain ⟨rfl, rfl⟩ := Prod.mk.inj (Option.some.inj found)
      exact ⟨declarator, child, beq_iff_eq.mp kind, isName, rfl, beq_iff_eq.mp identifier⟩
    · cases found
  · cases found

theorem mem_declaredBy {statement : Place} : (place, value) ∈ declaredBy statement ↔
    statement.kind.isVariables = true ∧ (place, value) ∈ declaratorPlaces statement := by
  rw [declaredBy]
  split
  · rename_i isVariables
    exact ⟨fun member => ⟨isVariables, member⟩, fun ⟨_, member⟩ => member⟩
  · rename_i other
    exact ⟨fun absent => absurd absent List.not_mem_nil, fun ⟨same, _⟩ => absurd same other⟩

end Declarators

end Script

/-! ## The bodies of scopes -/

theorem isFunctionLike_of_readyCallback? {place callback : Place}
    (found : readyCallback? place = some callback) : callback.kind.isFunctionLike = true := by
  rw [readyCallback?] at found
  split at found
  · cases found
  · split at found
    · exact (Option.filter_eq_some_iff.mp found).2
    · simp only [Option.bind_eq_bind, Option.bind_eq_some_iff] at found
      rcases found with ⟨_, _, _, _, object, _, property, _, found⟩
      simp only [readyMethodCallback?, Option.bind_eq_bind, Option.bind_eq_some_iff,
        Option.guard_eq_some'] at found
      rcases found with ⟨last, _, _, isFunction, found⟩
      have same : last = callback := by
        split at found
        · rcases Option.bind_eq_some_iff.mp found with ⟨_, _, same⟩
          exact Option.some.inj same
        · split at found
          · rcases Option.bind_eq_some_iff.mp found with ⟨_, _, same⟩
            exact Option.some.inj same
          · cases found
      exact same ▸ isFunction

/-- The body of a scope that a statement introduces is the body of a function. -/
theorem exists_function_of_scopeOf? {statement : Place} {scope : Scope}
    (found : scopeOf? statement = some scope) :
    ∃ function : Place, function.kind.isFunctionLike = true ∧
      blockBody? function = some scope.body := by
  simp only [scopeOf?, Option.bind_eq_bind, Option.bind_eq_some_iff] at found
  rcases found with ⟨expression, _, found⟩
  split at found
  · rename_i callback ready
    rcases Option.map_eq_some_iff.mp found with ⟨body, isBody, rfl⟩
    exact ⟨callback, isFunctionLike_of_readyCallback? ready, isBody⟩
  · rcases Option.map_eq_some_iff.mp found with ⟨body, isBody, rfl⟩
    simp only [wrapperBody?, Option.bind_eq_bind, Option.bind_eq_some_iff,
      Option.guard_eq_some'] at isBody
    rcases isBody with ⟨_, _, _, _, callee, _, _, isFunction, isBody⟩
    exact ⟨callee, isFunction, isBody⟩

namespace Facts

variable {tree : Node}

/-- Declarations of all kinds belong to the body of a scope. -/
theorem isScope_of_mem_scopes {scope : Scope} (member : scope ∈ (ofTree tree).scopes) :
    scope.body.isVariableScope = true ∧ scope.body.isBlockScope = true := by
  rcases mem_scopes_iff.mp member with rfl | ⟨statement, _, found⟩
  · exact ⟨rfl, rfl⟩
  · obtain ⟨function, isFunction, isBody⟩ := exists_function_of_scopeOf? found
    obtain ⟨child, block⟩ := Option.filter_eq_some_iff.mp isBody
    have field : scope.body.field = some .body := by simpa using List.find?_some child
    rw [Place.isVariableScope,
      Place.parent?_of_mem_children (Place.mem_children_of_child? child)]
    dsimp only
    rw [block, field, isFunction, Place.isBlockScope, block]
    exact ⟨by simp, by simp⟩

/-! ## What scopes declare -/

/-- The names that scopes declare as variables, with the initial values, in the order of the
scopes. -/
def scopeDeclarations (facts : Facts) : List (Place × Option Place) :=
  facts.statements.flatMap declaredBy

section Declarations

variable {place : Place} {value : Option Place}

/-- What is declared by a statement of a scope is declared in its body. -/
theorem scopes_of_declarator {scope : Scope} (member : scope ∈ (ofTree tree).scopes)
    {statement declarator : Place} (listed : statement ∈ statementsOf scope.body)
    (isVariables : statement.kind.isVariables = true) (child : declarator ∈ statement.children) :
    declarator.variableScope? = some scope.body ∧ declarator.blockScope? = some scope.body := by
  have isChild := Place.mem_children_of_contents listed
  have parent := Place.parent?_of_mem_children isChild
  have noScope : statement.isVariableScope = false ∧ statement.isBlockScope = false := by
    rw [Place.isVariableScope, Place.isBlockScope, parent]
    cases same : statement.kind <;> rw [same] at isVariables <;>
      first | exact ⟨rfl, rfl⟩ | cases isVariables
  have above : declarator.above = statement :: scope.body :: scope.body.above := by
    rw [Place.above_of_mem_children child, Place.above_of_mem_children isChild]
  obtain ⟨variableScope, blockScope⟩ := isScope_of_mem_scopes member
  rw [Place.variableScope?, Place.blockScope?, above]
  simp only [List.find?_cons, noScope, variableScope, blockScope, and_self]

/-- What a scope declares belongs to its body. -/
theorem declaredIn?_of_scope {scope : Scope} (member : scope ∈ (ofTree tree).scopes)
    {statement : Place} (listed : statement ∈ statementsOf scope.body)
    (isVariables : statement.kind.isVariables = true)
    (declares : (place, value) ∈ declaratorPlaces statement) :
    place.declaredIn? = some scope.body := by
  obtain ⟨declarator, child, kind, isName, _, identifier⟩ := exists_declarator_of_mem declares
  have field : place.field = some .name := by simpa using List.find?_some isName
  have parent := Place.parent?_of_mem_children (Place.mem_children_of_child? isName)
  have whole : place.target = place := by
    have apart : place.isTargetPart = false := by
      rw [Place.isTargetPart, parent]
      dsimp only
      rw [kind]
    rw [Place.target, List.find?_cons, apart]
    rfl
  have isTargetName : place.isTargetName = true := by
    rw [Place.isTargetName, identifier]
    rfl
  obtain ⟨variableScope, blockScope⟩ := scopes_of_declarator member listed isVariables child
  rw [Place.declaredIn?, isTargetName]
  simp only [whole, parent, kind, field, Option.bind_eq_bind, Option.bind_some, beq_self_eq_true,
    guard_true, Option.pure_def, variableScope, blockScope, ite_self]

theorem exists_scope_of_mem (member : (place, value) ∈ (ofTree tree).scopeDeclarations) :
    place.kind = .identifier ∧ ∃ scope ∈ (ofTree tree).scopes,
      place ∈ scope.body.declarationsIn place.text := by
  obtain ⟨statement, isStatement, declares⟩ := List.mem_flatMap.mp member
  obtain ⟨isVariables, declares⟩ := mem_declaredBy.mp declares
  obtain ⟨scope, isScope, listed⟩ := List.mem_flatMap.mp isStatement
  obtain ⟨declarator, child, _, isName, _, identifier⟩ := exists_declarator_of_mem declares
  have inStatement := Place.mem_walk_of_children statement.mem_walk_self child
  have inside := Place.mem_walk_of_children inStatement (Place.mem_children_of_child? isName)
  have inBody := Place.mem_walk_trans (mem_walk_of_statementsOf scope.body.mem_walk_self listed)
    inside
  refine ⟨identifier, scope, isScope, Place.mem_declarationsIn.mpr ⟨inBody, ?_, rfl⟩⟩
  rw [declaredIn?_of_scope isScope listed isVariables declares]
  rfl

end Declarations

/-! ## Variables that stand for selections -/

/-- The selector of what a name is bound to. -/
def selectorOf? : Bound → Option String
  | .selection selector => some selector
  | .function _ | .variable => none

/-- The names that scopes declare as variables for selections, with the selectors. -/
def aliasDeclarations (facts : Facts) : List (Place × String) :=
  facts.scopeDeclarations.filterMap fun (place, value) =>
    (selectorOf? (boundTo value)).map fun selector => (place, selector)

/-- Only variables are bound to selections. -/
theorem filterMap_bindings (statement : Place) :
    (bindings statement).filterMap (fun (name, bound) =>
        (selectorOf? bound).map fun selector => (name, selector)) =
      (declaredBy statement).filterMap fun (place, value) =>
        (selectorOf? (boundTo value)).map fun selector => (place.text, selector) := by
  rw [declaredBy]
  by_cases isVariables : statement.kind.isVariables = true
  · rw [bindings_of_isVariables isVariables, if_pos isVariables, declarators_eq, List.map_map,
      List.filterMap_map]
    rfl
  · rw [bindings, if_neg isVariables, if_neg isVariables]
    split
    · split <;> rfl
    · rfl

theorem aliases_eq (tree : Node) :
    (ofTree tree).aliases =
      (ofTree tree).aliasDeclarations.map fun (place, selector) => (place.text, selector) := by
  have selections : (ofTree tree).aliases = (ofTree tree).bound.filterMap fun (name, bound) =>
      (selectorOf? bound).map fun selector => (name, selector) := by
    refine List.filterMap_congr fun entry _ => ?_
    obtain ⟨name, bound⟩ := entry
    cases bound <;> rfl
  rw [selections, bound, List.filterMap_flatMap, aliasDeclarations, scopeDeclarations,
    List.map_filterMap, List.filterMap_flatMap]
  refine List.flatMap_congr fun statement _ => ?_
  rw [filterMap_bindings]
  refine List.filterMap_congr fun declared _ => ?_
  rw [Option.map_map]
  rfl

/-- The last variable of a name that stands for a selection decides for all of them. -/
theorem alias?_eq (tree : Node) (name : String) :
    (ofTree tree).alias? name =
      (((ofTree tree).aliasDeclarations.filter (·.1.text == name)).getLast?).map (·.2) := by
  rw [alias?, Aliases.find?, aliases_eq, ← List.map_reverse, List.find?_map, Option.map_map,
    List.getLast?_eq_head?_reverse, ← List.filter_reverse, List.head?_filter]
  rfl

end Facts
end Hookify
