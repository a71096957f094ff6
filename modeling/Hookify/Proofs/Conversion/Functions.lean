import Hookify.Proofs.Conversion.Component
import Hookify.Proofs.Pass.Coverage
import Hookify.Proofs.Pass.Frames

namespace Hookify

open Script Selection

/-!
# The functions of a script

A function that has not become a handler is added to the component late, when
handlers and references have their names.  A function whose name is taken by
then is refused without a word.  Handlers are named without regard to the names
that the script uses, and references give way to handlers, so that both can
take the name of a function; nothing else can.
-/

namespace Pass

variable {facts : Facts} {name : String} {place : Place}

/-- The function as part of a component. -/
def asFunction (facts : Facts) (name : String) (place : Place) : NamedFunction :=
  namedFunction facts (Renderer.of facts none) name place

/-- One step of the pass: a function is added unless it has become a handler. -/
def addDefined (facts : Facts) (draft : Draft) (defined : String × Place) : Draft :=
  if draft.isClaimed defined.1 then draft
  else (draft.addFunction (asFunction facts defined.1 defined.2)).1

theorem functions_eq_foldl (facts : Facts) (draft : Draft) :
    functions facts draft =
      (facts.statements.flatMap definedFunctions).foldl (addDefined facts) draft :=
  rfl

theorem extends_addDefined (draft : Draft) (defined : String × Place) :
    draft.Extends (addDefined facts draft defined) := by
  rw [addDefined]
  split
  · exact Draft.Extends.refl draft
  · exact (draft.change_addFunction _).extends

theorem claimed_addDefined (draft : Draft) (defined : String × Place) :
    (addDefined facts draft defined).claimed = draft.claimed := by
  have kept : (draft.perform (.addFunction (asFunction facts defined.1 defined.2))).claimed =
      draft.claimed := draft.perform_claimed fun _ same => Draft.Operation.noConfusion same
  rw [addDefined]
  split
  · rfl
  · exact kept

theorem mem_taken_addDefined {draft : Draft} {defined : String × Place}
    (taken : name ∈ (addDefined facts draft defined).taken) :
    name = defined.1 ∨ name ∈ draft.taken := by
  rw [addDefined, Draft.addFunction] at taken
  split at taken
  · exact .inr taken
  · split at taken
    · exact .inr taken
    · exact List.mem_cons.mp taken

/-- The function has not become a handler, and its name is free or its own. -/
structure Awaits (facts : Facts) (name : String) (place : Place) (draft : Draft) : Prop where
  unclaimed : draft.isClaimed name = false
  free : name ∉ draft.taken ∨ asFunction facts name place ∈ draft.functions

theorem Awaits.mem_addDefined {draft : Draft} (awaits : Awaits facts name place draft) :
    asFunction facts name place ∈ (addDefined facts draft (name, place)).functions := by
  rcases awaits.free with free | added
  · have untaken : ¬ draft.isTaken (asFunction facts name place).name = true :=
      mt Draft.isTaken_iff_mem.mp free
    rw [addDefined, awaits.unclaimed, if_neg Bool.false_ne_true, Draft.addFunction, if_neg untaken]
    exact List.mem_append_right _ (List.mem_singleton.mpr rfl)
  · exact (extends_addDefined draft (name, place)).functions.subset added

/-- Other functions have other names, and leave it as it is. -/
theorem Awaits.addDefined {draft : Draft} (awaits : Awaits facts name place draft)
    {defined : String × Place} (apart : defined.1 = name → defined = (name, place)) :
    Awaits facts name place (addDefined facts draft defined) := by
  refine ⟨?_, ?_⟩
  · rw [Draft.isClaimed, claimed_addDefined]
    exact awaits.unclaimed
  · by_cases own : defined.1 = name
    · rw [apart own]
      exact .inr awaits.mem_addDefined
    · rcases awaits.free with free | added
      · refine .inl fun taken => ?_
        rcases mem_taken_addDefined taken with same | earlier
        · exact own same.symm
        · exact free earlier
      · exact .inr ((extends_addDefined draft defined).functions.subset added)

/-- The pass adds a function that awaits it, if no other function has the name. -/
theorem mem_functions_of_awaits
    (distinct : ((facts.statements.flatMap definedFunctions).map (·.1)).Nodup)
    (defined : (name, place) ∈ facts.statements.flatMap definedFunctions) {draft : Draft}
    (awaits : Awaits facts name place draft) :
    asFunction facts name place ∈ (functions facts draft).functions := by
  rw [functions_eq_foldl]
  refine foldl_covers (Awaits facts name place)
    (fun other later => other = (name, place) → asFunction facts name place ∈ later.functions)
    (fun other _ draft => extends_addDefined draft other) ?_ ?_ ?_ defined awaits rfl
  · intro other among draft awaits
    exact awaits.addDefined fun same => List.inj_on_of_nodup_map distinct among defined same
  · exact fun extended covered same => extended.functions.subset (covered same)
  · rintro other _ draft awaits rfl
    exact awaits.mem_addDefined

/-- A function has a name that no other part of the draft has. -/
theorem name_not_mem_of_function {draft : Draft} (registered : draft.Registered)
    {function : NamedFunction} (member : function ∈ draft.functions) :
    function.name ∉ draft.states.map (·.identifier) ++ draft.references.map (·.identifier) ++
      draft.handlers.map (·.name) := by
  intro other
  exact (List.nodup_append.mp registered.distinct).2.2 _ other _ (List.mem_map_of_mem member) rfl

/-- When functions are added, a name that no variable of the script has is free unless a handler
or a reference has it, and keeps it. -/
theorem awaits_functionsDraft {tree : Node} {draft : Draft} (blank : draft.Blank)
    (undeclared : name ∉ (Facts.ofTree tree).declared)
    (unclaimed : name ∉ (Stage.runAll (Facts.ofTree tree) draft).claimed)
    (noHandler : ¬ ∃ handler ∈ (Stage.runAll (Facts.ofTree tree) draft).handlers,
      handler.name = name)
    (noReference : ¬ ∃ reference ∈ (Stage.runAll (Facts.ofTree tree) draft).references,
      reference.identifier = name) :
    Awaits (Facts.ofTree tree) name place (functionsDraft (Facts.ofTree tree) draft) := by
  have before := steps_stages (Facts.ofTree tree) beforeFunctions draft
  have later : (functionsDraft (Facts.ofTree tree) draft).Extends
      (Stage.runAll (Facts.ofTree tree) draft) :=
    (steps_stages (Facts.ofTree tree) [.functions, .mutations, .references] _).extends
  refine ⟨?_, .inl fun taken => ?_⟩
  · rw [claimed_functionsDraft] at unclaimed
    rw [Draft.isClaimed, List.contains_eq_mem]
    exact decide_eq_false unclaimed
  · have registered : (functionsDraft (Facts.ofTree tree) draft).Registered :=
      before.registered blank.registered
    rcases Draft.mem_identifiers.mp (registered.taken.mem_iff.mp taken) with
      ⟨state, member, same⟩ | ⟨reference, member, same⟩ | ⟨handler, member, same⟩ |
        ⟨function, member, _⟩
    · have origin := states_functionsDraft blank.states state member
      exact undeclared (same ▸ mem_declared_of_variableStates origin)
    · exact noReference ⟨reference, later.references.subset member, same⟩
    · exact noHandler ⟨handler, later.handlers.subset member, same⟩
    · rw [functions_functionsDraft, blank.functions] at member
      exact absurd member List.not_mem_nil

end Pass

/-- A function that is defined once, is no variable and has not become a handler is a function of
the component exactly if no handler and no reference has its name. -/
theorem defined_function_kept_iff (document : Document) (settings : Settings) (tree : Node)
    {name : String} {place : Place}
    (distinct : (((Facts.ofTree tree).statements.flatMap definedFunctions).map (·.1)).Nodup)
    (undeclared : name ∉ (Facts.ofTree tree).declared)
    (defined : (name, place) ∈ (Facts.ofTree tree).statements.flatMap definedFunctions)
    (unclaimed : name ∉ (Stage.runAll (Facts.ofTree tree) (document.draft settings)).claimed) :
    let component := document.componentOf settings tree
    Pass.asFunction (Facts.ofTree tree) name place ∈ component.functions ↔
      ¬ ((∃ handler ∈ component.handlers, handler.name = name) ∨
        ∃ reference ∈ component.references, reference.identifier = name) := by
  intro component
  have blank := document.blank_draft settings
  constructor
  · intro kept taken
    have steps := Pass.steps_runAll (Facts.ofTree tree) (document.draft settings)
    have apart := Pass.name_not_mem_of_function (steps.registered blank.registered) kept
    rw [List.mem_append, List.mem_append, not_or, not_or] at apart
    rcases taken with ⟨handler, member, same⟩ | ⟨reference, member, same⟩
    · exact apart.2 (List.mem_map.mpr ⟨handler, member, same⟩)
    · exact apart.1.2 (List.mem_map.mpr ⟨reference, member, same⟩)
  · intro free
    rw [not_or] at free
    have added := Pass.mem_functions_of_awaits distinct defined
      (Pass.awaits_functionsDraft blank undeclared unclaimed free.1 free.2)
    rw [← Pass.functions_runAll_eq] at added
    exact added

/-- A function that a handler calls is kept beside the handler. -/
theorem defined_function_kept_of_call :
    let document := Document.new
      "function go() \x7b run(); \x7d\n$('#a').click(function () \x7b go(); \x7d);" ⟨"go.js"⟩
    let tree := parse document.script
    let facts := Facts.ofTree tree
    let component := document.componentOf {} tree
    let functions := facts.statements.flatMap definedFunctions
    (functions.map (·.1)).Nodup ∧ "go" ∉ facts.declared ∧
      "go" ∉ (Stage.runAll facts (document.draft {})).claimed ∧
      ∃ place, ("go", place) ∈ functions ∧
        Pass.asFunction facts "go" place ∈ component.functions := by
  intro document tree facts component functions
  have run : functions.map (·.1) = ["go"] ∧ "go" ∉ facts.declared ∧
      "go" ∉ (Stage.runAll facts (document.draft {})).claimed ∧
      component.handlers.map (·.name) = ["handleAClick"] ∧
      component.references.map (·.identifier) = ["aRef"] := by
    decide +kernel
  rcases run with ⟨names, undeclared, unclaimed, handlers, references⟩
  have distinct : (functions.map (·.1)).Nodup := names ▸ List.nodup_singleton "go"
  have listed : "go" ∈ functions.map (·.1) := names ▸ List.mem_singleton.mpr rfl
  rcases List.mem_map.mp listed with ⟨⟨_, place⟩, defined, rfl⟩
  refine ⟨distinct, undeclared, unclaimed, place, defined, ?_⟩
  apply (defined_function_kept_iff document {} tree distinct undeclared defined unclaimed).mpr
  rintro (⟨handler, member, same⟩ | ⟨reference, member, same⟩)
  · have named := List.mem_map.mpr ⟨handler, member, same⟩
    rw [handlers] at named
    exact absurd named (by decide)
  · have named := List.mem_map.mpr ⟨reference, member, same⟩
    rw [references] at named
    exact absurd named (by decide)

/-- A function with the name of a handler is lost, and the handler calls itself in its place. -/
theorem not_kept_of_handler_name :
    let document := Document.new
      ("function handleSaveClick() \x7b store(); \x7d\n" ++
        "$('#save').click(function () \x7b handleSaveClick(); \x7d);") ⟨"save.js"⟩
    let tree := parse document.script
    let facts := Facts.ofTree tree
    let component := document.componentOf {} tree
    let functions := facts.statements.flatMap definedFunctions
    functions.map (·.1) = ["handleSaveClick"] ∧ facts.declared = [] ∧
      (Stage.runAll facts (document.draft {})).claimed = [] ∧ component.functions = [] ∧
      component.handlers.map (fun handler => (handler.name, handler.body)) =
        [("handleSaveClick", "handleSaveClick();")] := by
  decide +kernel

end Hookify
