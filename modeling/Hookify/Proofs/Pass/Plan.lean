import Hookify.Proofs.Facts.Nest
import Hookify.Proofs.Pass.Start
import Hookify.Proofs.Text.Occurrence
import Mathlib.Data.List.Perm.Basic

namespace Hookify
namespace Pass

open Script

/-!
# The plan of the start

Before any code is written, the effects of the start are lists of statements:
those of the top level together, then scope by scope those of a callback for the
ready page, and each request by itself.  The effects are the plan, written out.

The plan has every statement that no other pass takes care of, and each of them
once.
-/

/-- An effect of the start before it is written. -/
structure PlannedEffect where
  trigger : Trigger
  /-- The statements that the effect runs, in this order. -/
  statements : List Place
  description : String

section Plan

variable (facts : Facts)

/-- The code of the statements, line after line. -/
def PlannedEffect.code (effect : PlannedEffect) : String :=
  String.intercalate "\n" (effect.statements.map (startCode facts))

/-- The effect with its code.  Only what loads data depends on what it reads. -/
def PlannedEffect.pending (effect : PlannedEffect) : PendingEffect where
  trigger := effect.trigger
  code := effect.code facts
  description := effect.description
  reads := if effect.trigger = .fetch then some (effect.code facts) else none
  owner := none

/-- The statements of a scope that no other pass takes care of. -/
def remainingStatements (scope : Scope) : List Place :=
  (statementsOf scope.body).filter (! isClaimed facts ·)

/-- One effect for all statements, if there are any. -/
def planMount (statements : List Place) (description : String) : List PlannedEffect :=
  if statements.isEmpty then [] else [⟨.mount, statements, description⟩]

/-- One effect for each request of a scope. -/
def planFetches (scope : Scope) : List PlannedEffect :=
  (remainingStatements facts scope).filterMap fun statement =>
    (fetchDescription? facts statement).map fun description => ⟨.fetch, [statement], description⟩

/-- The effects of one scope, apart from the statements of the top level. -/
def planScope (scope : Scope) : List PlannedEffect :=
  planMount (if scope.kind == .ready then plainStatements facts scope else [])
      "Run once on mount (converted from a ready handler)" ++
    planFetches facts scope

/-- All effects of the start. -/
def plan : List PlannedEffect :=
  planMount (topStatements facts) "Run top-level statements once on mount" ++
    facts.scopes.flatMap (planScope facts)

end Plan

section Plan

variable {facts : Facts}

/-! ## The effects are the plan, written out -/

theorem mountEffects_eq (statements : List Place) (description : String) :
    mountEffects (statements.map (startCode facts)) description =
      (planMount statements description).map (·.pending facts) := by
  rw [mountEffects, planMount, List.isEmpty_map]
  split <;> rfl

theorem fetchEffects_eq (scope : Scope) :
    ((scopeCode facts (Renderer.of facts none) scope).fetches.map fun (text, description) =>
        (⟨.fetch, text, description, some text, none⟩ : PendingEffect)) =
      (planFetches facts scope).map (·.pending facts) := by
  have single : ∀ (statement : Place) (description : String),
      (⟨.fetch, [statement], description⟩ : PlannedEffect).pending facts =
        ⟨.fetch, startCode facts statement, description, some (startCode facts statement), none⟩ :=
    fun statement description => by
      simp only [PlannedEffect.pending, PlannedEffect.code, List.map_singleton,
        String.intercalate_singleton, if_true]
  rw [planFetches, scopeCode, List.map_filterMap, List.map_filterMap]
  refine List.filterMap_congr fun statement _ => ?_
  simp only [Option.map_map]
  exact Option.map_congr fun description _ => (single statement description).symm

theorem scopeEffects_eq (scope : Scope) :
    scopeEffects (scopeCode facts (Renderer.of facts none) scope) =
      (planScope facts scope).map (·.pending facts) := by
  have own : (if (scopeCode facts (Renderer.of facts none) scope).kind == .ready then
        (scopeCode facts (Renderer.of facts none) scope).statements else []) =
      (if scope.kind == .ready then plainStatements facts scope else []).map (startCode facts) := by
    rw [scopeCode_statements, apply_ite (List.map (startCode facts))]
    rfl
  rw [scopeEffects, own, mountEffects_eq, fetchEffects_eq, planScope, List.map_append]

theorem startEffects_eq_plan (facts : Facts) :
    startEffects facts = (plan facts).map (·.pending facts) := by
  rw [startEffects, topCode_eq, mountEffects_eq, scopeCodes, List.flatMap_map, plan,
    List.map_append, List.map_flatMap]
  simp only [scopeEffects_eq]

/-! ## The statements of the plan -/

theorem statements_planMount (statements : List Place) (description : String) :
    (planMount statements description).flatMap (·.statements) = statements := by
  rw [planMount]
  split
  · rename_i empty
    exact (List.isEmpty_iff.mp empty).symm
  · exact List.append_nil statements

theorem statements_planFetches (scope : Scope) :
    (planFetches facts scope).flatMap (·.statements) =
      (remainingStatements facts scope).filter fun statement =>
        (fetchDescription? facts statement).isSome := by
  rw [planFetches]
  induction remainingStatements facts scope with
  | nil => rfl
  | cons first rest ih =>
      cases request : fetchDescription? facts first <;> simp [request, ih]

theorem plainStatements_eq (scope : Scope) :
    plainStatements facts scope = (remainingStatements facts scope).filter fun statement =>
      ! (fetchDescription? facts statement).isSome := by
  simp only [plainStatements, remainingStatements, Option.not_isSome]

theorem topStatements_eq (facts : Facts) :
    topStatements facts = facts.scopes.flatMap fun scope =>
      if scope.kind == .topLevel then plainStatements facts scope else [] := by
  rw [topStatements]
  induction facts.scopes with
  | nil => rfl
  | cons first rest ih =>
      cases kind : first.kind <;> simp [kind, ih]

theorem keptStatements_eq (facts : Facts) :
    keptStatements facts = facts.scopes.flatMap (remainingStatements facts) := by
  rw [keptStatements, Facts.statements, List.filter_flatMap]
  rfl

/-- Of one scope, the plan has the statements that no other pass takes care of. -/
theorem scopeStatements_perm (scope : Scope) :
    ((if scope.kind == .topLevel then plainStatements facts scope else []) ++
      (planScope facts scope).flatMap (·.statements)).Perm (remainingStatements facts scope) := by
  have both := List.filter_append_perm
    (fun statement => (fetchDescription? facts statement).isSome) (remainingStatements facts scope)
  rw [← plainStatements_eq, ← statements_planFetches] at both
  rw [planScope, List.flatMap_append, statements_planMount, ← List.append_assoc]
  refine List.Perm.trans ?_ (List.perm_append_comm.trans both)
  cases scope.kind <;> simp

/-- The plan has the statements that no other pass takes care of, no more and no less. -/
theorem statements_plan_perm (facts : Facts) :
    ((plan facts).flatMap (·.statements)).Perm (keptStatements facts) := by
  rw [plan, List.flatMap_append, statements_planMount, topStatements_eq, List.flatMap_assoc,
    keptStatements_eq]
  exact (List.flatMap_append_perm _ _ _).trans
    (List.Perm.flatMap_left _ fun scope _ => scopeStatements_perm scope)

theorem nodup_statements_plan (tree : Node) :
    ((plan (Facts.ofTree tree)).flatMap (·.statements)).Nodup :=
  (statements_plan_perm _).nodup_iff.mpr
    ((Facts.nodup_statements tree).sublist List.filter_sublist)

/-! ## The effects of the plan -/

/-- What an effect may run: a request by itself, which it describes, or statements that are none. -/
inductive PlannedEffect.Fits (facts : Facts) : PlannedEffect → Prop where
  | fetch {statement : Place} {description : String}
      (request : fetchDescription? facts statement = some description) :
      Fits facts ⟨.fetch, [statement], description⟩
  | mount {statements : List Place} {description : String} (some : statements ≠ [])
      (plain : ∀ statement ∈ statements, fetchDescription? facts statement = none) :
      Fits facts ⟨.mount, statements, description⟩

theorem eq_of_mem_planMount {statements : List Place} {description : String}
    {effect : PlannedEffect} (member : effect ∈ planMount statements description) :
    statements ≠ [] ∧ effect = ⟨.mount, statements, description⟩ := by
  rw [planMount] at member
  split at member
  · exact absurd member List.not_mem_nil
  · rename_i some
    exact ⟨fun empty => some (List.isEmpty_iff.mpr empty), List.mem_singleton.mp member⟩

theorem fits_of_mem_plan {effect : PlannedEffect} (member : effect ∈ plan facts) :
    effect.Fits facts := by
  have plain : ∀ {scope statement}, statement ∈ plainStatements facts scope →
      fetchDescription? facts statement = none := fun inside => (mem_plainStatements.mp inside).2
  rcases List.mem_append.mp member with top | own
  · obtain ⟨some, rfl⟩ := eq_of_mem_planMount top
    refine .mount some fun statement inside => ?_
    obtain ⟨scope, _, listed⟩ := List.mem_flatMap.mp inside
    exact plain listed
  · obtain ⟨scope, _, inScope⟩ := List.mem_flatMap.mp own
    rcases List.mem_append.mp inScope with mounted | fetched
    · obtain ⟨some, rfl⟩ := eq_of_mem_planMount mounted
      refine .mount some fun statement inside => ?_
      split at inside
      · exact plain inside
      · exact absurd inside List.not_mem_nil
    · obtain ⟨statement, _, found⟩ := List.mem_filterMap.mp fetched
      obtain ⟨description, request, rfl⟩ := Option.map_eq_some_iff.mp found
      exact .fetch request

/-- The effect is made of statements: its code is their code, line after line. -/
def MadeOf (facts : Facts) (statements : List Place) (effect : PendingEffect) : Prop :=
  effect.code = String.intercalate "\n" (statements.map (startCode facts))

/-- An effect of the start is made of statements that are kept. -/
theorem exists_kept_of_mem_startEffects {effect : PendingEffect}
    (member : effect ∈ startEffects facts) :
    ∃ statements, (∀ statement ∈ statements, statement ∈ keptStatements facts) ∧
      MadeOf facts statements effect := by
  rw [startEffects_eq_plan] at member
  obtain ⟨planned, listed, rfl⟩ := List.mem_map.mp member
  refine ⟨planned.statements, fun statement inside => ?_, rfl⟩
  exact (statements_plan_perm facts).mem_iff.mp (List.mem_flatMap.mpr ⟨planned, listed, inside⟩)

/-- The code of every statement that is kept occurs in an effect of the start. -/
theorem exists_startEffect_of_mem_kept {statement : Place}
    (kept : statement ∈ keptStatements facts) :
    ∃ effect ∈ startEffects facts,
      Text.occursIn (startCode facts statement) effect.code = true := by
  obtain ⟨planned, listed, inside⟩ :=
    List.mem_flatMap.mp ((statements_plan_perm facts).mem_iff.mpr kept)
  rw [startEffects_eq_plan]
  refine ⟨planned.pending facts, List.mem_map_of_mem listed, ?_⟩
  exact Text.occursIn_intercalate (Text.occursIn_self _) (List.mem_map_of_mem inside) "\n"

/-- Every effect of the start runs on mount or loads data. -/
theorem shape_of_mem_startEffects {effect : PendingEffect} (member : effect ∈ startEffects facts) :
    effect = ⟨.mount, effect.code, effect.description, none, none⟩ ∨
      effect = ⟨.fetch, effect.code, effect.description, some effect.code, none⟩ := by
  rw [startEffects_eq_plan] at member
  obtain ⟨planned, listed, rfl⟩ := List.mem_map.mp member
  cases fits_of_mem_plan listed with
  | fetch request => exact .inr rfl
  | mount some plain => exact .inl rfl

/-! ## The order of the statements of the top level -/

/-- The scopes of the top level: the script itself, and functions that are called on the spot. -/
def topScopes (facts : Facts) : List Scope :=
  facts.scopes.filter (·.kind == .topLevel)

theorem mem_topStatements {statement : Place} : statement ∈ topStatements facts ↔
    ∃ scope ∈ topScopes facts, statement ∈ plainStatements facts scope :=
  List.mem_flatMap

theorem plainStatements_sublist (scope : Scope) :
    (plainStatements facts scope).Sublist scope.body.children :=
  List.filter_sublist.trans (List.filter_sublist.trans scope.body.contents_sublist)

theorem mem_walk_of_plainStatements {scope : Scope} {statement : Place}
    (member : statement ∈ plainStatements facts scope) : statement ∈ scope.body.walk :=
  Place.mem_walk_of_children scope.body.mem_walk_self
    ((plainStatements_sublist scope).subset member)

/-- If the second scope is inside the first, its statements come after those of the first, as far as
they share the first effect. -/
def StandsBefore (facts : Facts) (outer inner : Scope) : Prop :=
  inner.body ∈ outer.body.walk → inner.body ≠ outer.body →
    ∀ first ∈ plainStatements facts outer, ∀ second ∈ plainStatements facts inner,
      first.start ≤ second.start

/-- Scopes in the order of the list: the later is inside the earlier or behind it, and never around
it. -/
theorem pairwise_scopes (tree : Node) :
    (Facts.ofTree tree).scopes.Pairwise fun first second => first.body ∉ second.body.walk ∧
      (second.body ∈ first.body.walk ∨ first.body.stop ≤ second.body.start) := by
  have ordered := (Facts.scopesInOrder tree).ordered
  refine List.pairwise_and_iff.mpr ⟨?_, ?_⟩
  · exact List.pairwise_map.mp ((Place.pairwise_not_mem_walk _).sublist ordered)
  · exact List.pairwise_map.mp ((Place.pairwise_walk _).sublist ordered)

/-- The statements of the first effect follow the source exactly if, at the top level, the statements
of each scope stand before those of the scopes inside it. -/
theorem pairwise_topStatements_iff (tree : Node) :
    ((topStatements (Facts.ofTree tree)).Pairwise fun first second => first.start ≤ second.start) ↔
      ∀ outer ∈ topScopes (Facts.ofTree tree), ∀ inner ∈ topScopes (Facts.ofTree tree),
        StandsBefore (Facts.ofTree tree) outer inner := by
  have within : ∀ scope : Scope, (plainStatements (Facts.ofTree tree) scope).Pairwise
      fun first second => first.start ≤ second.start := fun scope =>
    (scope.body.pairwise_children.sublist (plainStatements_sublist scope)).imp
      fun {first _} apart => Nat.le_trans first.start_le_stop apart
  have listed : (topScopes (Facts.ofTree tree)).Pairwise _ :=
    (pairwise_scopes tree).filter (·.kind == .topLevel)
  rw [topStatements, List.pairwise_flatMap, and_iff_right fun scope _ => within scope]
  constructor
  · intro ordered outer isOuter inner isInner
    refine List.Pairwise.forall_of_forall_of_flip (fun scope _ _ apart => absurd rfl apart)
      (ordered.imp fun follow _ _ => follow) (listed.imp ?_) isOuter isInner
    -- Of two scopes in the list, the later one is not around the earlier one.
    exact fun order around => absurd around order.1
  · intro nested
    refine listed.imp_of_mem fun {outer inner} isOuter isInner order first isFirst second isSecond => ?_
    rcases order with ⟨around, inside | behind⟩
    · refine nested outer isOuter inner isInner inside (fun same => around ?_) first isFirst second
        isSecond
      exact same ▸ inner.body.mem_walk_self
    · have left := Place.start_le_and_stop_le_of_mem_walk (mem_walk_of_plainStatements isFirst)
      have right := Place.start_le_and_stop_le_of_mem_walk (mem_walk_of_plainStatements isSecond)
      have := first.start_le_stop
      omega

end Plan

end Pass
end Hookify
