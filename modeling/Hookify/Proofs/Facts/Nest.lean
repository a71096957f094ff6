import Hookify.Proofs.Facts.Scopes
import Hookify.Proofs.Script.Order

namespace Hookify

open Script

/-!
# The nest of scopes

The number of nodes bounds the depth of the search for scopes, so that the bound
can be left out: a scope is followed by the nests of the scopes that its
statements introduce, in the order of the statements.  The same list comes from
a search with a stack, on which the scopes that are introduced are put with the
last one first.

The bodies of the scopes follow the walk over the script.  This fixes both their
order and their number: no body comes twice.
-/

/-- The scopes that the statements of a list introduce. -/
def introducedScopes (body : Place) : List Scope :=
  (statementsOf body).filterMap scopeOf?

/-- A scope and all scopes inside it. -/
def Scope.nest (scope : Scope) : List Scope :=
  scopesFrom scope.body.node.size scope

/-- The search with a stack that has its top at the end.  The scope on top has been found, and the
scopes that it introduces take its place, so that the first of them is on top. -/
def searchScopes : Nat → List Scope → List Scope → List Scope
  | 0, _, found => found
  | fuel + 1, stack, found =>
      match stack.getLast? with
      | none => found
      | some scope =>
          searchScopes fuel (stack.dropLast ++ (introducedScopes scope.body).reverse)
            (found ++ [scope])

section Nest

variable {fuel other : Nat} {scope : Scope}

theorem size_lt_of_introducedScopes {body : Place} (member : scope ∈ introducedScopes body) :
    scope.body.node.size < body.node.size := by
  obtain ⟨statement, listed, found⟩ := List.mem_filterMap.mp member
  exact size_lt_of_scopeOf? listed found

/-- All bounds that are no less than the number of nodes give the same scopes. -/
theorem scopesFrom_eq (bound : scope.body.node.size ≤ fuel)
    (otherBound : scope.body.node.size ≤ other) :
    scopesFrom fuel scope = scopesFrom other scope := by
  have positive : 0 < scope.body.node.size := scope.body.node.size_eq ▸ Nat.succ_pos _
  induction fuel generalizing scope other with
  | zero => exact absurd (Nat.lt_of_lt_of_le positive bound) (Nat.lt_irrefl 0)
  | succ fuel ih =>
      obtain ⟨other, rfl⟩ := Nat.exists_eq_succ_of_ne_zero
        (Nat.ne_zero_of_lt (Nat.lt_of_lt_of_le positive otherBound))
      rw [scopesFrom, scopesFrom]
      congr 1
      refine List.flatMap_congr fun introduced member => ?_
      have smaller := size_lt_of_introducedScopes member
      exact ih (Nat.le_of_lt_succ (Nat.lt_of_lt_of_le smaller bound))
        (Nat.le_of_lt_succ (Nat.lt_of_lt_of_le smaller otherBound))
        (introduced.body.node.size_eq ▸ Nat.succ_pos _)

/-- Each scope stands before the scopes that its statements introduce, and these follow one another
in the order of the statements. -/
theorem Scope.nest_eq (scope : Scope) :
    scope.nest = scope :: (introducedScopes scope.body).flatMap nest := by
  rw [nest, scopesFrom_eq (Nat.le_refl _) (Nat.le_succ _), scopesFrom]
  congr 1
  exact List.flatMap_congr fun introduced member =>
    scopesFrom_eq (Nat.le_of_lt (size_lt_of_introducedScopes member)) (Nat.le_refl _)

/-- The bodies of a nest follow the walk over the outermost of them. -/
theorem Scope.bodies_sublist (scope : Scope) :
    (scope.nest.map (·.body)).Sublist scope.body.walk := by
  induction size : scope.body.node.size using Nat.strongRecOn generalizing scope with
  | ind bound ih =>
      have smaller : ∀ introduced ∈ introducedScopes scope.body,
          (introduced.nest.map (·.body)).Sublist introduced.body.walk := fun introduced member =>
        ih _ (size ▸ size_lt_of_introducedScopes member) introduced rfl
      have statements : ((statementsOf scope.body).flatMap Place.walk).Sublist
          (scope.body.children.flatMap Place.walk) :=
        scope.body.contents_sublist.flatMap Place.walk
      rw [nest_eq, List.map_cons, Place.walk_eq, List.map_flatMap]
      refine (List.Sublist.trans ?_ statements).cons_cons _
      rw [introducedScopes, List.filterMap_eq_flatMap_toList, List.flatMap_assoc]
      refine List.Sublist.flatMap_right _ fun statement listed => ?_
      -- A statement has at most one scope, and that stands inside it.
      cases found : scopeOf? statement with
      | none => exact List.nil_sublist _
      | some introduced =>
          have inside := mem_walk_of_scopeOf? statement.mem_walk_self found
          rw [Option.toList_some, List.flatMap_singleton]
          exact (smaller introduced (List.mem_filterMap.mpr ⟨statement, listed, found⟩)).trans
            (Place.walk_sublist inside)

/-! ## The search with a stack -/

/-- What has been found and the nests on the stack, from the top, are the same after a turn. -/
theorem searchScopes_turn (scope : Scope) (rest found : List Scope) :
    (found ++ [scope]) ++ (rest ++ (introducedScopes scope.body).reverse).reverse.flatMap
        Scope.nest =
      found ++ (rest ++ [scope]).reverse.flatMap Scope.nest := by
  rw [List.reverse_append, List.reverse_reverse, List.reverse_append, List.reverse_singleton,
    List.flatMap_append, List.flatMap_append, List.flatMap_singleton, Scope.nest_eq,
    List.append_assoc, List.singleton_append, List.cons_append]

/-- The search finds the nests on the stack, from the top, if there are enough turns. -/
theorem searchScopes_eq {stack found : List Scope}
    (bound : (stack.reverse.flatMap Scope.nest).length ≤ fuel) :
    searchScopes fuel stack found = found ++ stack.reverse.flatMap Scope.nest := by
  induction fuel generalizing stack found with
  | zero =>
      rw [searchScopes, List.length_eq_zero_iff.mp (Nat.le_zero.mp bound), List.append_nil]
  | succ fuel ih =>
      rcases stack.eq_nil_or_concat' with rfl | ⟨rest, scope, rfl⟩
      · exact (List.append_nil found).symm
      · have turn := searchScopes_turn scope rest found
        have shorter := congrArg List.length turn
        simp only [List.length_append, List.length_singleton] at shorter
        rw [searchScopes, List.getLast?_concat, List.dropLast_concat, ← turn]
        exact ih (by omega)

end Nest

/-! ## The scopes of the facts -/

namespace Facts

variable {tree : Node}

/-- The whole script as a scope. -/
def top (facts : Facts) : Scope :=
  ⟨facts.root, .topLevel⟩

/-- The list of scopes is complete, has no repetition and follows the source, each scope before
those that its statements introduce. -/
structure ScopesInOrder (facts : Facts) : Prop where
  /-- The nest of a scope is that scope, followed by the nests of the scopes that its statements
  introduce. -/
  nested : facts.scopes = facts.top.nest ∧
    ∀ scope : Scope, scope.nest = scope :: (introducedScopes scope.body).flatMap Scope.nest
  /-- The search with a stack finds the same list, however many turns it has beyond those that it
  needs. -/
  searched : ∀ extra, searchScopes (facts.root.node.size + extra) [facts.top] [] = facts.scopes
  /-- The scopes are the script and what the statements of scopes introduce. -/
  complete : ∀ scope, scope ∈ facts.scopes ↔
    scope = facts.top ∨ ∃ statement ∈ facts.statements, scopeOf? statement = some scope
  /-- The bodies stand in the order in which the walk over the script comes to them. -/
  ordered : (facts.scopes.map (·.body)).Sublist facts.root.walk
  once : (facts.scopes.map (·.body)).Nodup

theorem mem_scopes_iff {scope : Scope} :
    scope ∈ (ofTree tree).scopes ↔ scope = (ofTree tree).top ∨
      ∃ statement ∈ (ofTree tree).statements, scopeOf? statement = some scope := by
  constructor
  · exact eq_or_introduced_of_mem_scopesFrom
  · rintro (rfl | ⟨statement, member, found⟩)
    · exact mem_scopesFrom_self _ _
    · exact mem_scopes_of_scopeOf? member found

theorem scopesInOrder (tree : Node) : (ofTree tree).ScopesInOrder := by
  have ordered := (ofTree tree).top.bodies_sublist
  have single : [(ofTree tree).top].reverse.flatMap Scope.nest = (ofTree tree).scopes :=
    List.flatMap_singleton _ _
  have length : (ofTree tree).scopes.length ≤ (ofTree tree).root.node.size := by
    rw [← Place.length_walk, ← List.length_map (·.body)]
    exact ordered.length_le
  exact {
    nested := ⟨rfl, Scope.nest_eq⟩
    searched := fun extra => by
      rw [searchScopes_eq (single ▸ Nat.le_add_right_of_le length), single, List.nil_append]
    complete := fun _ => mem_scopes_iff
    ordered := ordered
    once := (Place.nodup_walk _).sublist ordered }

/-- No statement belongs to two scopes. -/
theorem nodup_statements (tree : Node) : (ofTree tree).statements.Nodup := by
  rw [statements, List.nodup_flatMap]
  refine ⟨fun scope _ => scope.body.nodup_children.sublist scope.body.contents_sublist, ?_⟩
  refine (List.pairwise_map.mp (scopesInOrder tree).once).imp fun apart statement first second => ?_
  have parent := Place.parent?_of_mem_children (Place.mem_children_of_contents first)
  rw [Place.parent?_of_mem_children (Place.mem_children_of_contents second)] at parent
  exact apart (Option.some.inj parent).symm

end Facts
end Hookify
