import Hookify.Facts.Basic
import Hookify.Proofs.Script.Places
import Mathlib.Data.Option.Basic

namespace Hookify

open Script Selection

/-!
# Facts point into the script

Whatever the facts about a script mention stands somewhere in the script:
scopes and their statements, the values of variables, the objects of chains.
So a selector that a variable stands for has been selected somewhere, and a
name that a scope declares is used somewhere.
-/

/-! ## Calls -/

namespace Selection

theorem mem_walk_of_callArguments {outer call argument : Place} (inside : call ∈ outer.walk)
    (member : argument ∈ callArguments call) : argument ∈ outer.walk := by
  rw [callArguments] at member
  split at member
  · rename_i arguments found
    have list := Place.mem_walk_of_children inside (Place.mem_children_of_child? found)
    exact Place.mem_walk_of_children list (Place.mem_children_of_contents member)
  · exact absurd member List.not_mem_nil

theorem eq_callArguments_of_selectArguments? {place : Place} {arguments : List Place}
    (found : selectArguments? place = some arguments) : arguments = callArguments place := by
  simp only [selectArguments?, Option.bind_eq_bind, Option.bind_eq_some_iff] at found
  rcases found with ⟨_, _, function, _, _, _, same⟩
  exact (Option.some.inj same).symm

theorem methodCall?_eq_some {place object : Place} {call : MethodCall}
    (found : methodCall? place = some (call, object)) :
    call.place = place ∧ call.arguments = callArguments place ∧
      ∃ function, place.child? .function = some function ∧
        function.child? .object = some object := by
  simp only [methodCall?, Option.bind_eq_bind, Option.bind_eq_some_iff] at found
  rcases found with ⟨_, _, function, isFunction, _, _, owner, isObject, property, _, same⟩
  rcases Prod.mk.inj (Option.some.inj same) with ⟨rfl, rfl⟩
  exact ⟨rfl, rfl, function, isFunction, isObject⟩

theorem mem_walk_of_callsFrom {outer : Place} (fuel : Nat) {place : Place}
    (inside : place ∈ outer.walk) : (callsFrom fuel place).2 ∈ outer.walk := by
  induction fuel generalizing place with
  | zero => exact inside
  | succ fuel ih =>
      rw [callsFrom]
      split
      · exact inside
      · rename_i call object found
        rcases methodCall?_eq_some found with ⟨_, _, function, isFunction, isObject⟩
        have callee := Place.mem_walk_of_children inside (Place.mem_children_of_child? isFunction)
        exact ih (Place.mem_walk_of_children callee (Place.mem_children_of_child? isObject))

/-- A variable stands for a selector only if it is bound to it. -/
theorem mem_of_find? {aliases : Aliases} {name selector : String}
    (found : aliases.find? name = some selector) : (name, selector) ∈ aliases := by
  rw [Aliases.find?, Option.map_eq_some_iff] at found
  rcases found with ⟨entry, first, rfl⟩
  have same := List.find?_some first
  rw [beq_iff_eq] at same
  have member := List.mem_reverse.mp (List.mem_of_find?_eq_some first)
  exact same ▸ member

theorem not_mem_of_find?_eq_none {aliases : Aliases} {name : String}
    (missing : aliases.find? name = none) (selector : String) : (name, selector) ∉ aliases := by
  intro member
  rw [Aliases.find?, Option.map_eq_none_iff, List.find?_eq_none] at missing
  exact missing _ (List.mem_reverse.mpr member) (beq_self_eq_true name)

end Selection

/-! ## Chains that write -/

theorem mem_mutatedBy {chain : Chain} {name : String} :
    name ∈ mutatedBy chain ↔ ∃ call ∈ chain.effective, ∃ facet selector,
      call.role = .mutation facet ∧ chain.target = .selector selector ∧
        name = Identifier.state selector facet := by
  rw [mutatedBy, List.mem_filterMap]
  constructor
  · rintro ⟨call, member, found⟩
    split at found
    · rename_i facet selector role target
      exact ⟨call, member, facet, selector, role, target, (Option.some.inj found).symm⟩
    · cases found
  · rintro ⟨call, member, facet, selector, role, target, same⟩
    exact ⟨call, member, by rw [role, target, same]⟩

theorem Selection.mem_calls_of_effective {chain : Chain} {call : MethodCall}
    (member : call ∈ chain.effective) : call ∈ chain.calls :=
  (List.takeWhile_prefix _).subset member

/-! ## Scopes -/

theorem mem_of_readyMethodCallback? {object callback : Place} {method : String}
    {arguments : List Place} (found : readyMethodCallback? object method arguments = some callback) :
    callback ∈ arguments := by
  simp only [readyMethodCallback?, Option.bind_eq_bind, Option.bind_eq_some_iff] at found
  rcases found with ⟨last, isLast, _, _, found⟩
  have same : last = callback := by
    split at found
    · rcases Option.bind_eq_some_iff.mp found with ⟨_, _, same⟩
      exact Option.some.inj same
    · split at found
      · rcases Option.bind_eq_some_iff.mp found with ⟨_, _, same⟩
        exact Option.some.inj same
      · cases found
  exact same ▸ List.mem_of_getLast? isLast

theorem mem_walk_of_readyCallback? {outer place callback : Place} (inside : place ∈ outer.walk)
    (found : readyCallback? place = some callback) : callback ∈ outer.walk := by
  rw [readyCallback?] at found
  split at found
  · cases found
  · split at found
    · rename_i arguments selects
      have first := List.mem_of_head? (Option.filter_eq_some_iff.mp found).1
      rw [eq_callArguments_of_selectArguments? selects] at first
      exact mem_walk_of_callArguments inside first
    · simp only [Option.bind_eq_bind, Option.bind_eq_some_iff] at found
      rcases found with ⟨function, _, _, _, object, _, property, _, found⟩
      exact mem_walk_of_callArguments inside (mem_of_readyMethodCallback? found)

theorem mem_walk_of_withoutParentheses {outer : Place} (fuel : Nat) {place inner : Place}
    (inside : place ∈ outer.walk) (found : withoutParentheses fuel place = some inner) :
    inner ∈ outer.walk := by
  induction fuel generalizing place with
  | zero => exact Option.some.inj found ▸ inside
  | succ fuel ih =>
      rw [withoutParentheses] at found
      split at found
      · rcases Option.bind_eq_some_iff.mp found with ⟨child, first, deeper⟩
        have member := Place.mem_children_of_namedChildren (List.mem_of_head? first)
        exact ih (Place.mem_walk_of_children inside member) deeper
      · exact Option.some.inj found ▸ inside

theorem mem_walk_of_blockBody? {outer function body : Place} (inside : function ∈ outer.walk)
    (found : blockBody? function = some body) : body ∈ outer.walk :=
  Place.mem_walk_of_children inside
    (Place.mem_children_of_child? (Option.filter_eq_some_iff.mp found).1)

theorem mem_walk_of_wrapperBody? {outer place body : Place} (inside : place ∈ outer.walk)
    (found : wrapperBody? place = some body) : body ∈ outer.walk := by
  simp only [wrapperBody?, Option.bind_eq_bind, Option.bind_eq_some_iff] at found
  rcases found with ⟨_, _, function, isFunction, callee, within, _, _, found⟩
  have called := Place.mem_walk_of_children inside (Place.mem_children_of_child? isFunction)
  exact mem_walk_of_blockBody? (mem_walk_of_withoutParentheses _ called within) found

theorem mem_walk_of_scopeOf? {outer statement : Place} {scope : Scope}
    (inside : statement ∈ outer.walk) (found : scopeOf? statement = some scope) :
    scope.body ∈ outer.walk := by
  simp only [scopeOf?, Option.bind_eq_bind, Option.bind_eq_some_iff] at found
  rcases found with ⟨expression, isExpression, found⟩
  have child := mem_children_of_statementExpression? isExpression
  have within := Place.mem_walk_of_children inside child
  split at found
  · rename_i callback ready
    rcases Option.map_eq_some_iff.mp found with ⟨body, isBody, rfl⟩
    exact mem_walk_of_blockBody? (mem_walk_of_readyCallback? within ready) isBody
  · rcases Option.map_eq_some_iff.mp found with ⟨body, isBody, rfl⟩
    exact mem_walk_of_wrapperBody? within isBody

theorem mem_walk_of_statementsOf {outer body statement : Place} (inside : body ∈ outer.walk)
    (member : statement ∈ statementsOf body) : statement ∈ outer.walk :=
  Place.mem_walk_of_children inside (Place.mem_children_of_contents member)

theorem mem_walk_of_scopesFrom {outer : Place} (fuel : Nat) {scope inner : Scope}
    (inside : scope.body ∈ outer.walk) (member : inner ∈ scopesFrom fuel scope) :
    inner.body ∈ outer.walk := by
  induction fuel generalizing scope with
  | zero => exact List.mem_singleton.mp member ▸ inside
  | succ fuel ih =>
      rw [scopesFrom] at member
      rcases List.mem_cons.mp member with same | below
      · exact same ▸ inside
      · rcases List.mem_flatMap.mp below with ⟨introduced, among, deeper⟩
        rcases List.mem_filterMap.mp among with ⟨statement, listed, introduces⟩
        exact ih (mem_walk_of_scopeOf? (mem_walk_of_statementsOf inside listed) introduces) deeper

/-! ## The facts about a tree -/

namespace Facts

variable {tree : Node}

theorem mem_walk_of_statements {statement : Place} (member : statement ∈ (ofTree tree).statements) :
    statement ∈ (ofTree tree).root.walk := by
  rcases List.mem_flatMap.mp member with ⟨scope, among, listed⟩
  have body := mem_walk_of_scopesFrom _ (Place.ofRoot tree).mem_walk_self among
  exact mem_walk_of_statementsOf body listed

theorem mem_names {name : String} :
    name ∈ (ofTree tree).names ↔ ∃ place ∈ (ofTree tree).root.walk, usedName? place = some name := by
  change name ∈ ((ofTree tree).root.walk.filterMap usedName?).eraseDups ↔ _
  rw [List.mem_eraseDups, List.mem_filterMap]

theorem mem_names_of_identifier {place : Place} (inside : place ∈ (ofTree tree).root.walk)
    (identifier : place.kind = .identifier) : place.text ∈ (ofTree tree).names :=
  mem_names.mpr ⟨place, inside, by rw [usedName?, identifier]⟩

/-- The bindings of all scopes. -/
def bound (facts : Facts) : List (String × Bound) :=
  facts.statements.flatMap bindings

/-- What a scope binds as a selection or as a variable is declared by a statement of the scope. -/
theorem exists_declarator_of_bound {name : String} {value : Bound}
    (member : (name, value) ∈ (ofTree tree).bound) (plain : ∀ place, value ≠ .function place) :
    ∃ statement ∈ (ofTree tree).statements, statement.kind.isVariables = true ∧
      ∃ initial, (name, initial) ∈ declarators statement ∧ value = boundTo initial := by
  rcases List.mem_flatMap.mp member with ⟨statement, among, binds⟩
  rw [bindings] at binds
  split at binds
  · split at binds
    · have same := (Prod.mk.inj (List.mem_singleton.mp binds)).2
      exact absurd same (plain statement)
    · exact absurd binds List.not_mem_nil
  · split at binds
    · rename_i isVariables
      rcases List.mem_map.mp binds with ⟨⟨key, initial⟩, declares, same⟩
      rcases Prod.mk.inj same with ⟨rfl, rfl⟩
      exact ⟨statement, among, isVariables, initial, declares, rfl⟩
    · exact absurd binds List.not_mem_nil

theorem bindings_of_isVariables {statement : Place}
    (isVariables : statement.kind.isVariables = true) :
    bindings statement =
      (declarators statement).map fun (name, value) => (name, boundTo value) := by
  have noFunction : statement.kind.isFunctionDeclaration = false := by
    cases kind : statement.kind <;> rw [kind] at isVariables <;> first | rfl | cases isVariables
  rw [bindings, noFunction, if_neg Bool.false_ne_true, if_pos isVariables]

theorem mem_bound_of_declarators {statement : Place} (among : statement ∈ (ofTree tree).statements)
    (isVariables : statement.kind.isVariables = true) {name : String} {initial : Option Place}
    (declares : (name, initial) ∈ declarators statement) :
    (name, boundTo initial) ∈ (ofTree tree).bound := by
  refine List.mem_flatMap.mpr ⟨statement, among, ?_⟩
  rw [bindings_of_isVariables isVariables]
  exact List.mem_map.mpr ⟨_, declares, rfl⟩

theorem mem_aliases {name selector : String} :
    (name, selector) ∈ (ofTree tree).aliases ↔ (name, .selection selector) ∈ (ofTree tree).bound := by
  change (name, selector) ∈ (ofTree tree).bound.filterMap _ ↔ _
  rw [List.mem_filterMap]
  constructor
  · rintro ⟨⟨key, value⟩, member, same⟩
    dsimp only at same
    split at same
    · cases same
      exact member
    · cases same
  · intro member
    exact ⟨_, member, rfl⟩

theorem mem_declared {name : String} :
    name ∈ (ofTree tree).declared ↔ (name, .variable) ∈ (ofTree tree).bound := by
  change name ∈ (ofTree tree).bound.filterMap _ ↔ _
  rw [List.mem_filterMap]
  constructor
  · rintro ⟨⟨key, value⟩, member, same⟩
    dsimp only at same
    split at same
    · cases same
      exact member
    · cases same
  · intro member
    exact ⟨_, member, rfl⟩

theorem eq_selection_of_boundTo {initial : Option Place} {selector : String}
    (same : Bound.selection selector = boundTo initial) :
    ∃ value, initial = some value ∧ value.kind.isFunctionLike = false ∧
      directTarget? value = some (.selector selector) := by
  cases initial with
  | none => cases same
  | some value =>
      rw [boundTo] at same
      split at same
      · cases same
      · rename_i plain
        split at same
        · rename_i text target
          cases same
          exact ⟨value, rfl, by simpa using plain, target⟩
        · cases same

theorem eq_function_of_boundTo {initial : Option Place} {place : Place}
    (same : boundTo initial = .function place) :
    (initial.map (·.kind.isFunctionLike)).getD false = true := by
  cases initial with
  | none => cases same
  | some value =>
      rw [boundTo] at same
      split at same
      · assumption
      · split at same <;> cases same

theorem eq_variable_of_boundTo {initial : Option Place} (same : Bound.variable = boundTo initial) :
    (initial.map (·.kind.isFunctionLike)).getD false = false := by
  cases initial with
  | none => rfl
  | some value =>
      rw [boundTo] at same
      split at same
      · cases same
      · rename_i plain
        simpa using plain

theorem eq_some_of_boundTo {place : Place} {initial : Option Place}
    (same : Bound.function place = boundTo initial) :
    initial = some place ∧ place.kind.isFunctionLike = true := by
  cases initial with
  | none => cases same
  | some value =>
      rw [boundTo] at same
      split at same
      · rename_i function
        cases same
        exact ⟨rfl, function⟩
      · split at same <;> cases same

/-- What the facts know as a function is a function that a statement defines. -/
theorem mem_definedFunctions_of_function? {name : String} {place : Place}
    (found : (ofTree tree).function? name = some place) :
    (name, place) ∈ (ofTree tree).statements.flatMap definedFunctions := by
  have bound : (name, .function place) ∈ (ofTree tree).bound := by
    rcases Option.map_eq_some_iff.mp found with ⟨⟨key, value⟩, first, rfl⟩
    have named := List.find?_some first
    rw [beq_iff_eq] at named
    have member := List.mem_reverse.mp (List.mem_of_find?_eq_some first)
    rcases List.mem_filterMap.mp member with ⟨⟨other, what⟩, inside, same⟩
    dsimp only at same named
    split at same
    · cases same
      exact named ▸ inside
    · cases same
  rcases List.mem_flatMap.mp bound with ⟨statement, among, binds⟩
  refine List.mem_flatMap.mpr ⟨statement, among, ?_⟩
  rw [bindings] at binds
  rw [definedFunctions]
  split at binds
  · rename_i declaration
    rw [if_pos declaration]
    cases named : statement.child? .name with
    | none =>
        rw [named] at binds
        exact absurd binds List.not_mem_nil
    | some identifier =>
        rw [named] at binds
        cases List.mem_singleton.mp binds
        exact List.mem_singleton.mpr rfl
  · rename_i noDeclaration
    rw [if_neg noDeclaration]
    split at binds
    · rename_i isVariables
      rw [if_pos isVariables]
      rcases List.mem_map.mp binds with ⟨⟨key, initial⟩, declares, same⟩
      rcases Prod.mk.inj same with ⟨rfl, isFunction⟩
      rcases eq_some_of_boundTo isFunction.symm with ⟨rfl, function⟩
      refine List.mem_filterMap.mpr ⟨_, declares, ?_⟩
      dsimp only
      rw [Option.filter_some, if_pos function]
      rfl
    · exact absurd binds List.not_mem_nil

/-- The selector that a variable stands for is selected in the script. -/
theorem exists_selection_of_alias? {name selector : String}
    (found : (ofTree tree).alias? name = some selector) :
    ∃ value ∈ (ofTree tree).root.walk, directTarget? value = some (.selector selector) := by
  have listed := mem_aliases.mp (mem_of_find? found)
  rcases exists_declarator_of_bound listed (fun _ => Bound.noConfusion) with
    ⟨statement, among, _, initial, declares, same⟩
  rcases eq_selection_of_boundTo same with ⟨value, rfl, _, target⟩
  exact ⟨value, Place.mem_walk_trans (mem_walk_of_statements among)
    (mem_walk_of_declarators declares), target⟩

/-- The selector at the bottom of a chain is selected in the script. -/
theorem exists_selection_of_chain? {place : Place} (inside : place ∈ (ofTree tree).root.walk)
    {chain : Chain} (found : (ofTree tree).chain? place = some chain) {selector : String}
    (target : chain.target = .selector selector) :
    ∃ value ∈ (ofTree tree).root.walk, directTarget? value = some (.selector selector) := by
  rw [chain?, Chain.at?, Option.map_eq_some_iff] at found
  rcases found with ⟨start, starts, rfl⟩
  have root := mem_walk_of_callsFrom place.node.size inside
  dsimp only at target starts
  rw [targetOf?] at starts
  split at starts
  · rcases Option.map_eq_some_iff.mp starts with ⟨text, alias_, rfl⟩
    cases target
    exact exists_selection_of_alias? alias_
  · exact ⟨_, root, target ▸ starts⟩

end Facts
end Hookify
