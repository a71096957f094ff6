import Hookify.Proofs.Conversion.Listeners
import Hookify.Proofs.Pass.Frames
import Hookify.Proofs.Pass.Plan

namespace Hookify

open Script Selection

/-!
# The effects of a component

The effects of a component are those of the start, which are determined by the
script alone, and one for each handler.  What is in neither is in no effect.
-/

/-- What lists have in common after a map holds of some item of the one if it holds of some item
of the other. -/
theorem exists_mem_iff_of_map_eq {First Second Value : Type} {first : List First}
    {second : List Second} {read : First → Value} {readOther : Second → Value}
    (same : first.map read = second.map readOther) (holds : Value → Prop) :
    (∃ item ∈ first, holds (read item)) ↔ ∃ item ∈ second, holds (readOther item) := by
  have values : (∃ value ∈ first.map read, holds value) ↔
      ∃ value ∈ second.map readOther, holds value := by
    rw [same]
  simpa using values

/-- The code that adds a handler on mount and removes it again. -/
def Handler.listenerCode (handler : Handler) : String :=
  Pass.listenerCode handler.target handler.event handler.name
    (handler.parent.map fun _ => handler.selector) handler.once

/-- The effects that run without an event. -/
def Component.startEffects (component : Component) : List Effect :=
  component.effects.filter (! ·.trigger.isEvent)

theorem Component.mem_effects_iff {component : Component} {effect : Effect} :
    effect ∈ component.effects ↔
      effect ∈ component.startEffects ∨ effect ∈ component.listenerEffects := by
  rw [startEffects, listenerEffects, List.mem_filter, List.mem_filter, ← and_or_left]
  cases effect.trigger.isEvent <;> simp

section Effects

variable (document : Document) (settings : Settings) (tree : Node)

/-- The effects that run without an event are those of the start, finished. -/
theorem startEffects_componentOf :
    let component := document.componentOf settings tree
    component.startEffects =
      (Pass.startEffects (Facts.ofTree tree)).map (Draft.resolve component.states) := by
  intro component
  have blank : (document.draft settings).startEffects = [] := by
    rw [Draft.startEffects, (document.blank_draft settings).effects]
    rfl
  rw [← Pass.startEffects_runAll blank]
  exact List.filter_map

theorem startCodes_componentOf :
    (document.componentOf settings tree).startEffects.map (·.code) =
      (Pass.startEffects (Facts.ofTree tree)).map (·.code) := by
  rw [startEffects_componentOf, List.map_map]
  rfl

theorem listenerCodes_componentOf :
    let component := document.componentOf settings tree
    component.listenerEffects.map (·.code) = component.handlers.map (·.listenerCode) := by
  intro component
  have blank := document.blank_draft settings
  have steps := Pass.steps_runAll (Facts.ofTree tree) (document.draft settings)
  have attached := (steps.attached blank.wellNamed blank.attached).finish
    (steps.wellNamed blank.wellNamed)
  rw [← List.forall₂_eq_eq_eq, List.forall₂_map_left_iff, List.forall₂_map_right_iff]
  exact (attached.imp fun _ _ attaches => attaches.code).flip

/-- Each effect of a component either belongs to the start or adds a handler. -/
theorem exists_effect_iff (holds : String → Prop) :
    let component := document.componentOf settings tree
    (∃ effect ∈ component.effects, holds effect.code) ↔
      (∃ effect ∈ Pass.startEffects (Facts.ofTree tree), holds effect.code) ∨
        ∃ handler ∈ component.handlers, holds handler.listenerCode := by
  intro component
  have start := exists_mem_iff_of_map_eq (startCodes_componentOf document settings tree) holds
  have listen := exists_mem_iff_of_map_eq (listenerCodes_componentOf document settings tree) holds
  rw [← start, ← listen]
  simp only [Component.mem_effects_iff, or_and_right, exists_or]
  rfl

end Effects

/-!
## What runs at the start, and in which order

The effects of the start go through the scopes of the script in the order in
which these begin.  For the effects of single scopes this is the order of the
source.  The statements of the top level share one effect, and there the order
of the scopes is another one than that of their statements: a function that is
called on the spot runs after all statements of the scope around it, also after
those that the source has behind it.
-/

namespace Component

/-- The effects that run without an event are planned: each statement that no other pass takes care
of has its code in one of them, once. -/
structure StartsAsPlanned (component : Component) (facts : Facts) : Prop where
  /-- The pass adds what is planned, whatever there is already. -/
  added : ∀ draft, Pass.startup facts draft =
    Pass.withEffects draft ((Pass.plan facts).map (·.pending facts))
  /-- The component has it in this order. -/
  finished : component.startEffects =
    (Pass.plan facts).map fun effect => Draft.resolve component.states (effect.pending facts)
  /-- The statements of the plan are those that no other pass takes care of. -/
  statements : ((Pass.plan facts).flatMap (·.statements)).Perm
    (facts.statements.filter fun statement => ! Pass.isClaimed facts statement)
  once : ((Pass.plan facts).flatMap (·.statements)).Nodup
  /-- A request has an effect to itself. -/
  fits : ∀ effect ∈ Pass.plan facts, effect.Fits facts

/-- What the effect of the statements of the top level does. -/
def topDescription : String :=
  "Run top-level statements once on mount"

/-- An effect runs the statements of the top level. -/
def isTop (trigger : Trigger) (description : String) : Bool :=
  trigger == .mount && description == topDescription

/-- The effect of the statements of the top level, if there is one. -/
def topEffects (component : Component) : List Effect :=
  component.effects.filter fun effect => isTop effect.trigger effect.description

end Component

/-- The scopes of a script are listed in the order of the source, each before those that its
statements introduce, without gaps and without repetition.  The effects of the start follow them: the
effect of the top level, and then, scope by scope, that of a callback for the ready page and those of
requests. -/
theorem start_follows_scopes (document : Document) (settings : Settings) (tree : Node) :
    let facts := Facts.ofTree tree
    facts.ScopesInOrder ∧ (document.componentOf settings tree).StartsAsPlanned facts := by
  intro facts
  refine ⟨Facts.scopesInOrder tree, ?_⟩
  exact {
    added := fun draft => by rw [Pass.startup_eq, Pass.startEffects_eq_plan]
    finished := by
      rw [startEffects_componentOf, Pass.startEffects_eq_plan, List.map_map]
      rfl
    statements := Pass.statements_plan_perm facts
    once := Pass.nodup_statements_plan tree
    fits := fun _ => Pass.fits_of_mem_plan }

/-- The effect of the top level is the one that is planned for its statements. -/
theorem topEffects_componentOf (document : Document) (settings : Settings) (tree : Node) :
    (document.componentOf settings tree).topEffects =
      (Pass.planMount (Pass.topStatements (Facts.ofTree tree)) Component.topDescription).map
        fun effect => ⟨.mount, effect.code (Facts.ofTree tree), [], Component.topDescription⟩ := by
  have among : (document.componentOf settings tree).topEffects =
      (document.componentOf settings tree).startEffects.filter fun effect =>
        Component.isTop effect.trigger effect.description := by
    rw [Component.topEffects, Component.startEffects, List.filter_filter]
    refine List.filter_congr fun effect _ => ?_
    cases effect.trigger <;> simp [Component.isTop, Trigger.isEvent]
  have own : (Pass.planMount (Pass.topStatements (Facts.ofTree tree))
      Component.topDescription).filter
        (fun effect => Component.isTop effect.trigger effect.description) =
      Pass.planMount (Pass.topStatements (Facts.ofTree tree)) Component.topDescription := by
    refine List.filter_eq_self.mpr fun effect member => ?_
    rw [(Pass.eq_of_mem_planMount member).2]
    exact (by decide : Component.isTop .mount Component.topDescription = true)
  have others : ((Facts.ofTree tree).scopes.flatMap (Pass.planScope (Facts.ofTree tree))).filter
      (fun effect => Component.isTop effect.trigger effect.description) = [] := by
    refine List.filter_eq_nil_iff.mpr fun effect member => ?_
    obtain ⟨scope, _, inScope⟩ := List.mem_flatMap.mp member
    rcases List.mem_append.mp inScope with mounted | fetched
    · rw [(Pass.eq_of_mem_planMount mounted).2]
      exact (by decide : ¬ Component.isTop .mount
        "Run once on mount (converted from a ready handler)" = true)
    · obtain ⟨statement, _, found⟩ := List.mem_filterMap.mp fetched
      obtain ⟨description, _, rfl⟩ := Option.map_eq_some_iff.mp found
      exact Bool.false_ne_true
  rw [among, startEffects_componentOf, Pass.startEffects_eq_plan, List.map_map, List.filter_map]
  refine Eq.trans (congrArg _ ((List.filter_append _ _).trans (congrArg₂ _ own others))) ?_
  rw [List.append_nil]
  refine List.map_congr_left fun effect member => ?_
  rw [(Pass.eq_of_mem_planMount member).2]
  rfl

/-- The effect of the top level runs the statements of the top level that no other pass takes care of
and that are no requests, each of them once.  It runs them in the order in which their texts stand in
the script exactly if in no scope of the top level a function that is called on the spot brings
statements to the effect and stands before another such statement. -/
theorem topEffects_in_source_order_iff (document : Document) (settings : Settings) (tree : Node) :
    let facts := Facts.ofTree tree
    let statements := Pass.topStatements facts
    (document.componentOf settings tree).topEffects =
        (if statements.isEmpty then []
          else [⟨.mount, String.intercalate "\n" (statements.map (Pass.startCode facts)), [],
            Component.topDescription⟩]) ∧
      (∀ statement, statement ∈ statements ↔ ∃ scope ∈ Pass.topScopes facts,
        statement ∈ statementsOf scope.body ∧ Pass.isClaimed facts statement = false ∧
          Pass.fetchDescription? facts statement = none) ∧
      statements.Nodup ∧
      (∀ statement ∈ statements, ∃ before after, tree.text = before ++ statement.text ++ after ∧
        before.utf8ByteSize = statement.start) ∧
      ((statements.Pairwise fun first second => first.start ≤ second.start) ↔
        ∀ outer ∈ Pass.topScopes facts, ∀ inner ∈ Pass.topScopes facts,
          Pass.StandsBefore facts outer inner) := by
  intro facts statements
  have members : ∀ statement, statement ∈ statements ↔ ∃ scope ∈ Pass.topScopes facts,
      statement ∈ statementsOf scope.body ∧ Pass.isClaimed facts statement = false ∧
        Pass.fetchDescription? facts statement = none := fun statement => by
    rw [Pass.mem_topStatements]
    simp only [Pass.mem_plainStatements, and_assoc]
  refine ⟨?_, members, ?_, fun statement member => ?_, Pass.pairwise_topStatements_iff tree⟩
  · rw [topEffects_componentOf, Pass.planMount, apply_ite (List.map _)]
    rfl
  · have once := Pass.nodup_statements_plan tree
    rw [Pass.plan, List.flatMap_append, Pass.statements_planMount] at once
    exact (List.nodup_append.mp once).1
  · obtain ⟨scope, listed, inside, _⟩ := (members statement).mp member
    exact Place.exists_text_eq (Facts.mem_walk_of_statements
      (List.mem_flatMap.mpr ⟨scope, List.mem_of_mem_filter listed, inside⟩))

/-- What stands behind a function that is called on the spot runs before the statements in it. -/
theorem not_in_source_order_of_wrapper :
    let document := Document.new "(function () \x7b inner(); \x7d)();\nouter();" ⟨"wrapper.js"⟩
    let tree := parse document.script
    let statements := Pass.topStatements (Facts.ofTree tree)
    (document.componentOf {} tree).topEffects.map (·.code) = ["outer();\ninner();"] ∧
      statements.map (fun statement => (statement.text, statement.start)) =
        [("outer();", 30), ("inner();", 15)] ∧
      ¬ statements.Pairwise fun first second => first.start ≤ second.start := by
  decide +kernel

end Hookify
