import Hookify.Pass.Startup
import Hookify.Proofs.Facts.Chains
import Hookify.Proofs.Facts.Scopes

namespace Hookify
namespace Pass

open Script

/-!
# The effects of the start

What a script does at the start is known before any draft: whatever the draft,
the pass adds the same effects to it.  They are made of the statements of scopes
that no other pass takes care of.
-/

section Start

variable (facts : Facts)

/-- The statements of scopes that no other pass takes care of. -/
def keptStatements : List Place :=
  facts.statements.filter (! isClaimed facts ·)

/-- The code of a statement that runs at the start. -/
def startCode (statement : Place) : String :=
  (Renderer.of facts none).fragment statement

/-- The effect of statements that run on mount, if there are any. -/
def mountEffects (statements : List String) (description : String) : List PendingEffect :=
  if statements.isEmpty then []
  else [⟨.mount, String.intercalate "\n" statements, description, none, none⟩]

/-- The effects of one scope apart from the statements of the top level. -/
def scopeEffects (code : ScopeCode) : List PendingEffect :=
  mountEffects (if code.kind == .ready then code.statements else [])
      "Run once on mount (converted from a ready handler)" ++
    code.fetches.map fun (text, description) => ⟨.fetch, text, description, some text, none⟩

/-- The code of all scopes. -/
def scopeCodes : List ScopeCode :=
  facts.scopes.map (scopeCode facts (Renderer.of facts none))

/-- All effects of the start. -/
def startEffects : List PendingEffect :=
  mountEffects (((scopeCodes facts).filter (·.kind == .topLevel)).flatMap (·.statements))
      "Run top-level statements once on mount" ++
    (scopeCodes facts).flatMap scopeEffects

end Start

/-- A draft with more effects. -/
def withEffects (draft : Draft) (effects : List PendingEffect) : Draft :=
  { draft with effects := draft.effects ++ effects }

@[simp]
theorem withEffects_nil (draft : Draft) : withEffects draft [] = draft := by
  rw [withEffects, List.append_nil]

theorem withEffects_append (draft : Draft) (first second : List PendingEffect) :
    withEffects draft (first ++ second) = withEffects (withEffects draft first) second := by
  simp only [withEffects, List.append_assoc]

section Start

variable {facts : Facts}

/-! ## The pass -/

theorem addStatements_eq (draft : Draft) (statements : List String) (description : String) :
    addStatements draft statements description =
      withEffects draft (mountEffects statements description) := by
  rw [addStatements, mountEffects]
  split
  · exact (withEffects_nil draft).symm
  · rfl

/-- If each item adds effects, all of them do, one after the other. -/
theorem foldl_withEffects {Item : Type} {items : List Item} {add : Draft → Item → Draft}
    {added : Item → List PendingEffect}
    (each : ∀ draft item, add draft item = withEffects draft (added item)) (draft : Draft) :
    items.foldl add draft = withEffects draft (items.flatMap added) := by
  induction items generalizing draft with
  | nil => exact (withEffects_nil draft).symm
  | cons first rest ih => rw [List.foldl_cons, ih, each, List.flatMap_cons, withEffects_append]

theorem addFetches_eq (draft : Draft) (fetches : List (String × String)) :
    fetches.foldl (fun draft (text, description) => draft.addFetchEffect text description) draft =
      withEffects draft (fetches.map fun (text, description) =>
        ⟨.fetch, text, description, some text, none⟩) := by
  rw [List.map_eq_flatMap]
  exact foldl_withEffects (fun _ _ => rfl) draft

theorem addScopeCode_eq (draft : Draft) (code : ScopeCode) :
    addScopeCode draft code = withEffects draft (scopeEffects code) := by
  rw [addScopeCode, scopeEffects, withEffects_append, ← addStatements_eq]
  exact addFetches_eq _ _

/-- The pass adds the effects of the start, whatever the draft. -/
theorem startup_eq (facts : Facts) (draft : Draft) :
    startup facts draft = withEffects draft (startEffects facts) := by
  rw [startEffects, withEffects_append, ← addStatements_eq, ← foldl_withEffects addScopeCode_eq]
  rfl

/-! ## What the effects are made of -/

theorem mem_keptStatements {statement : Place} :
    statement ∈ keptStatements facts ↔
      statement ∈ facts.statements ∧ isClaimed facts statement = false := by
  rw [keptStatements, List.mem_filter, Bool.not_eq_true']

/-- The statements of a scope that share an effect: those that are no requests. -/
def plainStatements (facts : Facts) (scope : Scope) : List Place :=
  ((statementsOf scope.body).filter (! isClaimed facts ·)).filter fun statement =>
    (fetchDescription? facts statement).isNone

theorem scopeCode_statements (facts : Facts) (scope : Scope) :
    (scopeCode facts (Renderer.of facts none) scope).statements =
      (plainStatements facts scope).map (startCode facts) := by
  rw [scopeCode, plainStatements]
  dsimp only
  induction (statementsOf scope.body).filter (! isClaimed facts ·) with
  | nil => rfl
  | cons first rest ih =>
      cases request : fetchDescription? facts first with
      | none => simp [request, startCode, ih]
      | some description => simp [request, ih]

/-- The statements of the top level that share the first effect. -/
def topStatements (facts : Facts) : List Place :=
  (facts.scopes.filter (·.kind == .topLevel)).flatMap (plainStatements facts)

theorem topCode_eq (facts : Facts) :
    ((scopeCodes facts).filter (·.kind == .topLevel)).flatMap (·.statements) =
      (topStatements facts).map (startCode facts) := by
  have kinds : (scopeCodes facts).filter (·.kind == .topLevel) =
      (facts.scopes.filter (·.kind == .topLevel)).map
        (scopeCode facts (Renderer.of facts none)) := by
    rw [scopeCodes, List.filter_map]
    rfl
  rw [kinds, topStatements, List.flatMap_map, List.map_flatMap]
  simp only [scopeCode_statements]

theorem mem_plainStatements {scope : Scope} {statement : Place} :
    statement ∈ plainStatements facts scope ↔ (statement ∈ statementsOf scope.body ∧
      isClaimed facts statement = false) ∧ fetchDescription? facts statement = none := by
  rw [plainStatements, List.mem_filter, List.mem_filter, Bool.not_eq_true',
    Option.isNone_iff_eq_none]

end Start

open Selection

/-!
## Statements that do not run at the start

What the start leaves out is introduced as a scope or left to the listeners.
Statements of scopes have no places in common unless one of them introduces a
scope, so that nothing in a statement for the listeners runs at the start.
-/

variable {facts : Facts} {tree : Node} {statement : Place} {chain : Chain}

theorem isClaimed_of_introducesScope (introduces : introducesScope statement = true) :
    isClaimed facts statement = true := by
  have kind : statement.kind = .expressionStatement := by
    by_contra other
    rw [introducesScope_of_kind other] at introduces
    cases introduces
  rw [isClaimed, kind]
  dsimp only
  split
  · rfl
  · rw [introduces, Bool.or_true, Bool.true_or]

theorem scopeOf?_eq_none_of_kept (kept : statement ∈ keptStatements facts) :
    scopeOf? statement = none := by
  apply scopeOf?_eq_none_of_introducesScope
  rw [← Bool.not_eq_true]
  intro introduces
  have unclaimed := (mem_keptStatements.mp kept).2
  rw [isClaimed_of_introducesScope introduces] at unclaimed
  cases unclaimed

/-- A statement whose chain binds an event is left to the listeners. -/
theorem isClaimed_of_bindingChain? (found : bindingChain? facts statement = some chain)
    (binds : chain.effective.any (·.role == .binding) = true) :
    isClaimed facts statement = true := by
  rcases bindingChain?_eq_some found with ⟨_, target, expression, isExpression, isChain⟩
  have kind := kind_of_statementExpression? isExpression
  have bound : bindsEvents facts expression = true := by
    rw [bindsEvents, isChain]
    simpa [target] using binds
  rw [isClaimed, kind]
  dsimp only
  rw [isExpression]
  dsimp only
  rw [bound, Bool.or_true]

/-- Nothing that stands in such a statement runs at the start. -/
theorem not_mem_walk_of_kept (member : statement ∈ (Facts.ofTree tree).statements)
    (found : bindingChain? (Facts.ofTree tree) statement = some chain)
    (binds : chain.effective.any (·.role == .binding) = true) {kept place : Place}
    (isKept : kept ∈ keptStatements (Facts.ofTree tree)) (inside : place ∈ statement.walk) :
    place ∉ kept.walk := by
  intro inKept
  rcases mem_keptStatements.mp isKept with ⟨keptMember, unclaimed⟩
  have plain := scopeOf?_eq_none_of_introducesScope (bindingChain?_eq_some found).1
  have same := Facts.eq_of_mem_statements member keptMember plain (scopeOf?_eq_none_of_kept isKept)
    inside inKept
  rw [← same, isClaimed_of_bindingChain? found binds] at unclaimed
  cases unclaimed

end Pass
end Hookify
