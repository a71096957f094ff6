import Hookify.Proofs.Facts.Inside
import Hookify.Proofs.Script.Paths

namespace Hookify

open Script

/-!
# The scopes of a script

Scopes are searched from the top with a bound on their depth.  The number of
nodes of a script is bound enough, since the body of a scope has fewer nodes
than the statement that introduces it: every statement of a scope that
introduces a scope has its scope in the list.

A statement of a scope either has a scope of its own, and then the statements of
that scope stand inside it, or it stands apart: it has no place in common with
another such statement.  Whatever becomes of the one is not a part of the other.
-/

/-! ## Introducing statements -/

/-- The body that is to run when a statement introduces a scope: that of the callback, or of the
function that is called on the spot. -/
def introducedBody? (statement : Place) : Option Place := do
  let expression ← statementExpression? statement
  match readyCallback? expression with
  | some callback => callback.child? .body
  | none => wrapperBody? expression

theorem kind_of_blockBody? {function body : Place} (found : blockBody? function = some body) :
    body.kind = .statementBlock :=
  beq_iff_eq.mp (Option.filter_eq_some_iff.mp found).2

theorem kind_of_wrapperBody? {place body : Place} (found : wrapperBody? place = some body) :
    body.kind = .statementBlock := by
  simp only [wrapperBody?, Option.bind_eq_bind, Option.bind_eq_some_iff] at found
  rcases found with ⟨_, _, _, _, _, _, _, _, found⟩
  exact kind_of_blockBody? found

/-- The body stands inside the statement that introduces it. -/
theorem mem_walk_of_introducedBody? {statement body : Place}
    (found : introducedBody? statement = some body) : body ∈ statement.walk := by
  simp only [introducedBody?, Option.bind_eq_bind, Option.bind_eq_some_iff] at found
  rcases found with ⟨expression, isExpression, found⟩
  have child := mem_children_of_statementExpression? isExpression
  have within := Place.mem_walk_of_children statement.mem_walk_self child
  split at found
  · rename_i callback ready
    exact Place.mem_walk_of_children (mem_walk_of_readyCallback? within ready)
      (Place.mem_children_of_child? found)
  · exact mem_walk_of_wrapperBody? within found

/-- A statement has a scope exactly if the body that it introduces is a block. -/
theorem exists_scopeOf?_iff {statement body : Place} :
    (∃ scope, scopeOf? statement = some scope ∧ scope.body = body) ↔
      introducedBody? statement = some body ∧ body.kind = .statementBlock := by
  rw [scopeOf?, introducedBody?]
  cases statementExpression? statement with
  | none => simp
  | some expression =>
      simp only [Option.bind_eq_bind, Option.bind_some]
      cases readyCallback? expression with
      | some callback => simp [blockBody?, Option.filter_eq_some_iff]
      | none =>
          dsimp only
          constructor
          · rintro ⟨scope, found, rfl⟩
            rcases Option.map_eq_some_iff.mp found with ⟨body, isBody, rfl⟩
            exact ⟨isBody, kind_of_wrapperBody? isBody⟩
          · rintro ⟨isBody, _⟩
            exact ⟨⟨body, .topLevel⟩, Option.map_eq_some_iff.mpr ⟨body, isBody, rfl⟩, rfl⟩

theorem introducesScope_of_scopeOf? {statement : Place} {scope : Scope}
    (found : scopeOf? statement = some scope) : introducesScope statement = true := by
  simp only [scopeOf?, Option.bind_eq_bind, Option.bind_eq_some_iff] at found
  rcases found with ⟨expression, isExpression, found⟩
  rw [introducesScope, isExpression]
  split at found
  · rename_i callback ready
    simp [ready]
  · rcases Option.map_eq_some_iff.mp found with ⟨body, isBody, _⟩
    simp [isBody]

theorem scopeOf?_eq_none_of_introducesScope {statement : Place}
    (plain : introducesScope statement = false) : scopeOf? statement = none := by
  by_contra present
  rcases Option.ne_none_iff_exists'.mp present with ⟨scope, found⟩
  rw [introducesScope_of_scopeOf? found] at plain
  cases plain

theorem kind_of_statementExpression? {statement expression : Place}
    (found : statementExpression? statement = some expression) :
    statement.kind = .expressionStatement := by
  rw [statementExpression?] at found
  split at found
  · rename_i kind
    exact beq_iff_eq.mp kind
  · cases found

/-- Only a statement that is nothing but an expression introduces a scope. -/
theorem introducesScope_of_kind {statement : Place} (kind : statement.kind ≠ .expressionStatement) :
    introducesScope statement = false := by
  rw [introducesScope, statementExpression?, if_neg (mt beq_iff_eq.mp kind)]

/-! ## The search -/

/-- The statements of the scopes that are found from one scope. -/
def statementsFrom (fuel : Nat) (scope : Scope) : List Place :=
  (scopesFrom fuel scope).flatMap fun inner => statementsOf inner.body

section Search

variable {fuel : Nat} {top : Scope}

theorem mem_scopesFrom_self (fuel : Nat) (top : Scope) : top ∈ scopesFrom fuel top := by
  cases fuel with
  | zero => exact List.mem_singleton.mpr rfl
  | succ fuel => exact List.mem_cons_self

/-- Scopes are found at the statements that introduce them. -/
theorem mem_scopesFrom_succ {scope : Scope} :
    scope ∈ scopesFrom (fuel + 1) top ↔ scope = top ∨
      ∃ statement ∈ statementsOf top.body, ∃ introduced,
        scopeOf? statement = some introduced ∧ scope ∈ scopesFrom fuel introduced := by
  rw [scopesFrom, List.mem_cons, List.mem_flatMap]
  constructor
  · rintro (same | ⟨introduced, member, deeper⟩)
    · exact .inl same
    · rcases List.mem_filterMap.mp member with ⟨statement, listed, found⟩
      exact .inr ⟨statement, listed, introduced, found, deeper⟩
  · rintro (same | ⟨statement, listed, introduced, found, deeper⟩)
    · exact .inl same
    · exact .inr ⟨introduced, List.mem_filterMap.mpr ⟨statement, listed, found⟩, deeper⟩

theorem mem_statementsFrom_succ {statement : Place} :
    statement ∈ statementsFrom (fuel + 1) top ↔ statement ∈ statementsOf top.body ∨
      ∃ introducing ∈ statementsOf top.body, ∃ introduced,
        scopeOf? introducing = some introduced ∧ statement ∈ statementsFrom fuel introduced := by
  simp only [statementsFrom, List.mem_flatMap, mem_scopesFrom_succ]
  constructor
  · rintro ⟨scope, rfl | ⟨introducing, listed, introduced, found, deeper⟩, member⟩
    · exact .inl member
    · exact .inr ⟨introducing, listed, introduced, found, scope, deeper, member⟩
  · rintro (member | ⟨introducing, listed, introduced, found, scope, deeper, member⟩)
    · exact ⟨top, .inl rfl, member⟩
    · exact ⟨scope, .inr ⟨introducing, listed, introduced, found, deeper⟩, member⟩

/-- A scope below the first has been introduced by a statement of a scope. -/
theorem eq_or_introduced_of_mem_scopesFrom {scope : Scope} (member : scope ∈ scopesFrom fuel top) :
    scope = top ∨ ∃ statement ∈ statementsFrom fuel top, scopeOf? statement = some scope := by
  induction fuel generalizing top with
  | zero => exact .inl (List.mem_singleton.mp member)
  | succ fuel ih =>
      rcases mem_scopesFrom_succ.mp member with same | ⟨statement, listed, introduced, found, deeper⟩
      · exact .inl same
      · rcases ih deeper with rfl | ⟨inner, below, introduces⟩
        · exact .inr ⟨statement, mem_statementsFrom_succ.mpr (.inl listed), found⟩
        · exact .inr ⟨inner, mem_statementsFrom_succ.mpr
            (.inr ⟨statement, listed, introduced, found, below⟩), introduces⟩

/-- The body of a scope has fewer nodes than the list in which the scope is introduced. -/
theorem size_lt_of_scopeOf? {body statement : Place} {introduced : Scope}
    (listed : statement ∈ statementsOf body) (found : scopeOf? statement = some introduced) :
    introduced.body.node.size < body.node.size :=
  calc
    introduced.body.node.size ≤ statement.node.size :=
      Place.size_le_of_mem_walk (mem_walk_of_scopeOf? statement.mem_walk_self found)
    _ < body.node.size := Place.size_lt_of_mem_children (Place.mem_children_of_contents listed)

/-- With a bound on the number of nodes, no scope is missed. -/
theorem mem_scopesFrom_of_statementsFrom (bound : top.body.node.size ≤ fuel) {statement : Place}
    (member : statement ∈ statementsFrom fuel top) {scope : Scope}
    (found : scopeOf? statement = some scope) : scope ∈ scopesFrom fuel top := by
  induction fuel generalizing top with
  | zero =>
      rw [Node.size_eq] at bound
      exact absurd bound (Nat.not_succ_le_zero _)
  | succ fuel ih =>
      rcases mem_statementsFrom_succ.mp member with
        listed | ⟨introducing, listed, introduced, introduces, deeper⟩
      · exact mem_scopesFrom_succ.mpr
          (.inr ⟨statement, listed, scope, found, mem_scopesFrom_self fuel scope⟩)
      · have smaller := Nat.lt_of_lt_of_le (size_lt_of_scopeOf? listed introduces) bound
        exact mem_scopesFrom_succ.mpr (.inr ⟨introducing, listed, introduced, introduces,
          ih (Nat.le_of_lt_succ smaller) deeper⟩)

/-- What is found from a scope stands inside the statement that introduces it. -/
theorem mem_walk_of_introduced {introducing statement : Place} {introduced : Scope}
    (found : scopeOf? introducing = some introduced)
    (member : statement ∈ statementsFrom fuel introduced) : statement ∈ introducing.walk := by
  rcases List.mem_flatMap.mp member with ⟨scope, among, listed⟩
  have body := mem_walk_of_scopeOf? introducing.mem_walk_self found
  exact mem_walk_of_statementsOf (mem_walk_of_scopesFrom fuel body among) listed

/-- Statements without scopes of their own have no place in common. -/
theorem eq_of_mem_statementsFrom {first second inner : Place}
    (isFirst : first ∈ statementsFrom fuel top) (isSecond : second ∈ statementsFrom fuel top)
    (firstPlain : scopeOf? first = none) (secondPlain : scopeOf? second = none)
    (inFirst : inner ∈ first.walk) (inSecond : inner ∈ second.walk) : first = second := by
  have listedApart : ∀ {first second : Place}, first ∈ statementsOf top.body →
      second ∈ statementsOf top.body → inner ∈ first.walk → inner ∈ second.walk →
      first = second := fun isFirst isSecond =>
    Place.eq_of_mem_walk_children (Place.mem_children_of_contents isFirst)
      (Place.mem_children_of_contents isSecond)
  induction fuel generalizing top with
  | zero =>
      simp only [statementsFrom, scopesFrom, List.flatMap_singleton] at isFirst isSecond
      exact listedApart isFirst isSecond inFirst inSecond
  | succ fuel ih =>
      rcases mem_statementsFrom_succ.mp isFirst with
        firstListed | ⟨introducing, listed, introduced, found, deeper⟩
      · rcases mem_statementsFrom_succ.mp isSecond with
          secondListed | ⟨introducing, listed, introduced, found, deeper⟩
        · exact listedApart firstListed secondListed inFirst inSecond
        · -- The first statement would be the one that introduces the scope of the second.
          have around := Place.mem_walk_trans (mem_walk_of_introduced found deeper) inSecond
          rw [listedApart firstListed listed inFirst around, found] at firstPlain
          cases firstPlain
      · have around := Place.mem_walk_trans (mem_walk_of_introduced found deeper) inFirst
        rcases mem_statementsFrom_succ.mp isSecond with
          secondListed | ⟨other, otherListed, otherIntroduced, otherFound, otherDeeper⟩
        · rw [listedApart secondListed listed inSecond around, found] at secondPlain
          cases secondPlain
        · have otherAround :=
            Place.mem_walk_trans (mem_walk_of_introduced otherFound otherDeeper) inSecond
          rw [listedApart otherListed listed otherAround around, found] at otherFound
          rw [← Option.some.inj otherFound] at otherDeeper
          exact ih deeper otherDeeper fun isFirst isSecond =>
            Place.eq_of_mem_walk_children (Place.mem_children_of_contents isFirst)
              (Place.mem_children_of_contents isSecond)

end Search

/-! ## The scopes of the facts -/

namespace Facts

variable {tree : Node} {statement : Place}

/-- The scope of every statement of a scope is among the scopes. -/
theorem mem_scopes_of_scopeOf? (member : statement ∈ (ofTree tree).statements) {scope : Scope}
    (found : scopeOf? statement = some scope) : scope ∈ (ofTree tree).scopes := by
  have bound : (⟨Place.ofRoot tree, .topLevel⟩ : Scope).body.node.size ≤ tree.size := Nat.le_refl _
  exact mem_scopesFrom_of_statementsFrom bound member found

/-- What a statement of a scope introduces is among the scopes exactly if it is a block. -/
theorem exists_scope_iff (member : statement ∈ (ofTree tree).statements) {body : Place}
    (introduced : introducedBody? statement = some body) :
    (∃ scope ∈ (ofTree tree).scopes, scope.body = body) ↔ body.kind = .statementBlock := by
  constructor
  · rintro ⟨scope, among, rfl⟩
    rcases eq_or_introduced_of_mem_scopesFrom among with rfl | ⟨other, _, found⟩
    · -- The whole script is not inside a statement.
      rcases List.mem_flatMap.mp member with ⟨outer, outerAmong, listed⟩
      have around := mem_walk_of_scopesFrom _ (Place.ofRoot tree).mem_walk_self outerAmong
      have statementSize := Place.size_lt_of_mem_children (Place.mem_children_of_contents listed)
      have bodySize := Place.size_le_of_mem_walk (mem_walk_of_introducedBody? introduced)
      exact absurd (Place.size_le_of_mem_walk around)
        (Nat.not_le_of_lt (Nat.lt_of_le_of_lt bodySize statementSize))
    · exact (exists_scopeOf?_iff.mp ⟨scope, found, rfl⟩).2
  · intro block
    rcases exists_scopeOf?_iff.mpr ⟨introduced, block⟩ with ⟨scope, found, same⟩
    exact ⟨scope, mem_scopes_of_scopeOf? member found, same⟩

/-- Statements of scopes that introduce no scope have no place in common. -/
theorem eq_of_mem_statements {first second inner : Place}
    (isFirst : first ∈ (ofTree tree).statements) (isSecond : second ∈ (ofTree tree).statements)
    (firstPlain : scopeOf? first = none) (secondPlain : scopeOf? second = none)
    (inFirst : inner ∈ first.walk) (inSecond : inner ∈ second.walk) : first = second :=
  eq_of_mem_statementsFrom isFirst isSecond firstPlain secondPlain inFirst inSecond

end Facts
end Hookify
