import Hookify.Proofs.Component.Frames
import Hookify.Proofs.Pass.Actions

namespace Hookify
namespace Pass

open Script Selection

/-!
# Which pass adds what

Each list of a draft is the affair of one pass, or of two.  The states come
from the declarations and, later, from the changes of elements; handlers and
claims from the listeners; functions from their own pass; and what runs at the
start from the start.  All other passes leave the list as they find it.
-/

section Passes

variable {facts : Facts} {stage : Stage} {first last : Draft}

theorem Runs.keeps {Value : Type} (runs : Runs facts stage first last) (read : Draft → Value)
    (kept : ∀ {draft operation}, Acts facts draft stage operation →
      read (draft.perform operation) = read draft) : read last = read first :=
  runs.preserves (fun draft => read draft = read first)
    (fun acts same => (kept acts).trans same) rfl

theorem Runs.states_eq (runs : Runs facts stage first last)
    (notDeclarations : stage ≠ .declarations) (notMutations : stage ≠ .mutations) :
    last.states = first.states := by
  refine runs.keeps (·.states) fun {draft _} acts => draft.perform_states ?_
  rintro state rfl
  cases acts with
  | declare member => exact notDeclarations rfl
  | own method writes => exact notMutations rfl

theorem Runs.claimed_eq (runs : Runs facts stage first last) (notListeners : stage ≠ .listeners) :
    last.claimed = first.claimed := by
  refine runs.keeps (·.claimed) fun {draft _} acts => draft.perform_claimed ?_
  rintro name rfl
  cases acts with
  | claim binds source => exact notListeners rfl

theorem Runs.functions_eq (runs : Runs facts stage first last) (notFunctions : stage ≠ .functions) :
    last.functions = first.functions := by
  refine runs.keeps (·.functions) fun {draft _} acts => draft.perform_functions ?_
  rintro function same
  cases acts with
  | define defined unclaimed => exact notFunctions rfl
  | _ => cases same

theorem Runs.selectors_eq (runs : Runs facts stage first last) (notReferences : stage ≠ .references) :
    last.selectors = first.selectors := by
  refine runs.keeps (·.selectors) fun {draft _} acts => draft.perform_selectors ?_
  rintro selector rfl
  cases acts with
  | select selected => exact notReferences rfl

theorem Runs.handlers_eq (runs : Runs facts stage first last) (notListeners : stage ≠ .listeners) :
    last.handlers = first.handlers := by
  refine runs.keeps (·.handlers) fun {draft _} acts => draft.perform_handlers ?_
  rintro handler code same
  cases acts with
  | listen binds parts listens => exact notListeners rfl
  | _ => cases same

theorem Runs.warnings_eq (runs : Runs facts stage first last) (notListeners : stage ≠ .listeners)
    (notMutations : stage ≠ .mutations) : last.warnings = first.warnings := by
  refine runs.keeps (·.warnings) fun {draft _} acts => draft.perform_warnings ?_
  rintro warning rfl
  cases acts with
  | refuse => exact notListeners rfl
  | warn => exact notMutations rfl

theorem Runs.animations_eq (runs : Runs facts stage first last)
    (notAnimations : stage ≠ .animations) : last.animations = first.animations := by
  refine runs.keeps (·.animations) fun {draft _} acts => draft.perform_animations ?_
  rintro animation rfl
  cases acts with
  | animate => exact notAnimations rfl

theorem Runs.remoteCalls_eq (runs : Runs facts stage first last) (notRequests : stage ≠ .requests) :
    last.remoteCalls = first.remoteCalls := by
  refine runs.keeps (·.remoteCalls) fun {draft _} acts => draft.perform_remoteCalls ?_
  rintro call rfl
  cases acts with
  | request => exact notRequests rfl

theorem Runs.mutations_eq (runs : Runs facts stage first last) (notMutations : stage ≠ .mutations) :
    last.mutations = first.mutations := by
  refine runs.keeps (·.mutations) fun {draft _} acts => draft.perform_mutations ?_
  rintro mutation rfl
  cases acts with
  | change => exact notMutations rfl

theorem Runs.startEffects_eq (runs : Runs facts stage first last) (notStartup : stage ≠ .startup) :
    last.startEffects = first.startEffects := by
  refine runs.keeps (·.startEffects) fun {draft _} acts => draft.perform_startEffects ?_ ?_
  · rintro code description rfl
    cases acts with
    | mount listed => exact notStartup rfl
  · rintro code description rfl
    cases acts with
    | fetch listed => exact notStartup rfl

end Passes

/-! ## Several passes -/

/-- Passes one after the other. -/
def runStages (facts : Facts) (stages : List Stage) (draft : Draft) : Draft :=
  stages.foldl (fun draft stage => stage.run facts draft) draft

section Stages

variable {facts : Facts} (stages : List Stage)

theorem runStages_keeps {Value : Type} (read : Draft → Value)
    (kept : ∀ stage ∈ stages, ∀ {first last}, Runs facts stage first last → read last = read first)
    (draft : Draft) : read (runStages facts stages draft) = read draft := by
  induction stages generalizing draft with
  | nil => rfl
  | cons stage rest ih =>
      have others := ih (fun other member => kept other (List.mem_cons_of_mem stage member))
        (stage.run facts draft)
      exact others.trans (kept stage List.mem_cons_self (runs_run facts stage draft))

/-! Without the pass that a list is the affair of, any number of passes leave it as it is. -/

theorem states_runStages (notDeclarations : .declarations ∉ stages)
    (notMutations : .mutations ∉ stages) (draft : Draft) :
    (runStages facts stages draft).states = draft.states :=
  runStages_keeps stages (·.states) (fun _ member _ _ runs =>
    runs.states_eq (ne_of_mem_of_not_mem member notDeclarations)
      (ne_of_mem_of_not_mem member notMutations)) draft

theorem claimed_runStages (notListeners : .listeners ∉ stages) (draft : Draft) :
    (runStages facts stages draft).claimed = draft.claimed :=
  runStages_keeps stages (·.claimed) (fun _ member _ _ runs =>
    runs.claimed_eq (ne_of_mem_of_not_mem member notListeners)) draft

theorem functions_runStages (notFunctions : .functions ∉ stages) (draft : Draft) :
    (runStages facts stages draft).functions = draft.functions :=
  runStages_keeps stages (·.functions) (fun _ member _ _ runs =>
    runs.functions_eq (ne_of_mem_of_not_mem member notFunctions)) draft

theorem selectors_runStages (notReferences : .references ∉ stages) (draft : Draft) :
    (runStages facts stages draft).selectors = draft.selectors :=
  runStages_keeps stages (·.selectors) (fun _ member _ _ runs =>
    runs.selectors_eq (ne_of_mem_of_not_mem member notReferences)) draft

theorem handlers_runStages (notListeners : .listeners ∉ stages) (draft : Draft) :
    (runStages facts stages draft).handlers = draft.handlers :=
  runStages_keeps stages (·.handlers) (fun _ member _ _ runs =>
    runs.handlers_eq (ne_of_mem_of_not_mem member notListeners)) draft

theorem warnings_runStages (notListeners : .listeners ∉ stages) (notMutations : .mutations ∉ stages)
    (draft : Draft) : (runStages facts stages draft).warnings = draft.warnings :=
  runStages_keeps stages (·.warnings) (fun _ member _ _ runs =>
    runs.warnings_eq (ne_of_mem_of_not_mem member notListeners)
      (ne_of_mem_of_not_mem member notMutations)) draft

theorem animations_runStages (notAnimations : .animations ∉ stages) (draft : Draft) :
    (runStages facts stages draft).animations = draft.animations :=
  runStages_keeps stages (·.animations) (fun _ member _ _ runs =>
    runs.animations_eq (ne_of_mem_of_not_mem member notAnimations)) draft

theorem remoteCalls_runStages (notRequests : .requests ∉ stages) (draft : Draft) :
    (runStages facts stages draft).remoteCalls = draft.remoteCalls :=
  runStages_keeps stages (·.remoteCalls) (fun _ member _ _ runs =>
    runs.remoteCalls_eq (ne_of_mem_of_not_mem member notRequests)) draft

theorem mutations_runStages (notMutations : .mutations ∉ stages) (draft : Draft) :
    (runStages facts stages draft).mutations = draft.mutations :=
  runStages_keeps stages (·.mutations) (fun _ member _ _ runs =>
    runs.mutations_eq (ne_of_mem_of_not_mem member notMutations)) draft

theorem startEffects_runStages (notStartup : .startup ∉ stages) (draft : Draft) :
    (runStages facts stages draft).startEffects = draft.startEffects :=
  runStages_keeps stages (·.startEffects) (fun _ member _ _ runs =>
    runs.startEffects_eq (ne_of_mem_of_not_mem member notStartup)) draft

/-- What every action preserves, whatever the pass, is preserved by all passes. -/
theorem runStages_preserves (invariant : Draft → Prop)
    (preserved : ∀ {stage draft operation}, Acts facts draft stage operation → invariant draft →
      invariant (draft.perform operation))
    {draft : Draft} (holds : invariant draft) : invariant (runStages facts stages draft) := by
  induction stages generalizing draft with
  | nil => exact holds
  | cons stage rest ih =>
      exact ih ((runs_run facts stage draft).preserves invariant (fun acts => preserved acts) holds)

/-- The passes before functions are added. -/
def beforeFunctions : List Stage :=
  [.declarations, .startup, .listeners, .requests, .animations]

/-- The draft to which functions are added. -/
def functionsDraft (facts : Facts) (draft : Draft) : Draft :=
  runStages facts beforeFunctions draft

end Stages

/-! ## The result -/

section Result

variable {facts : Facts} {draft : Draft}

/-- What runs at the start is what the script alone determines. -/
theorem startEffects_runAll (blank : draft.startEffects = []) :
    (Stage.runAll facts draft).startEffects = startEffects facts := by
  have silent : (startEffects facts).filter (! ·.trigger.isEvent) = startEffects facts := by
    refine List.filter_eq_self.mpr fun effect member => ?_
    rcases shape_of_mem_startEffects member with same | same <;> rw [same] <;> rfl
  have before : (declarations facts draft).startEffects = [] :=
    ((runs_declarations draft).startEffects_eq Stage.noConfusion).trans blank
  have started : (startup facts (declarations facts draft)).startEffects = startEffects facts := by
    rw [startup_eq, Draft.startEffects, withEffects, List.filter_append, silent]
    rw [Draft.startEffects] at before
    rw [before, List.nil_append]
  have later : (Stage.runAll facts draft).startEffects =
      (startup facts (declarations facts draft)).startEffects :=
    startEffects_runStages (Stage.all.drop 2) (by decide) _
  exact later.trans started

/-- The handler has been made for an event that a scope binds. -/
def Handles (facts : Facts) (handler : Handler) : Prop :=
  ∃ entry ∈ eventBindings facts,
    handlerParts? facts entry.2.delegate (handlerSource facts entry.2.handler) =
      some (handler.parameters, handler.body)

theorem handles_runAll (blank : draft.handlers = []) :
    ∀ handler ∈ (Stage.runAll facts draft).handlers, Handles facts handler := by
  refine runStages_preserves Stage.all
    (fun draft => ∀ handler ∈ draft.handlers, Handles facts handler) ?_
    (fun _ member => absurd member (blank ▸ List.not_mem_nil))
  intro stage draft operation acts holds
  cases acts with
  | listen binds parts listens =>
      intro handler member
      rcases List.mem_append.mp member with earlier | added
      · exact holds handler earlier
      · rw [List.mem_singleton.mp added]
        exact ⟨_, binds, parts⟩
  | _ => rwa [Draft.perform_handlers _ fun _ _ same => Draft.Operation.noConfusion same]

/-- A function is only claimed for an event that a scope binds. -/
theorem claimed_runAll (blank : draft.claimed = []) :
    ∀ name ∈ (Stage.runAll facts draft).claimed, ∃ entry ∈ eventBindings facts, ∃ function,
      handlerSource facts entry.2.handler = .claimed name function := by
  refine runStages_preserves Stage.all
    (fun draft => ∀ name ∈ draft.claimed, ∃ entry ∈ eventBindings facts, ∃ function,
      handlerSource facts entry.2.handler = .claimed name function) ?_
    (fun _ member => absurd member (blank ▸ List.not_mem_nil))
  intro stage draft operation acts holds
  cases acts with
  | claim binds source =>
      intro name member
      rcases List.mem_append.mp member with earlier | added
      · exact holds name earlier
      · rw [List.mem_singleton.mp added]
        exact ⟨_, binds, _, source⟩
  | _ => rwa [Draft.perform_claimed _ fun _ same => Draft.Operation.noConfusion same]

/-- A state is a variable of the script, or owns a facet of an element. -/
theorem states_runAll (blank : draft.states = []) :
    ∀ state ∈ (Stage.runAll facts draft).states, state ∈ variableStates facts ∨
      ∃ selector method facet, state = owningState selector method facet := by
  refine runStages_preserves Stage.all
    (fun draft => ∀ state ∈ draft.states, state ∈ variableStates facts ∨
      ∃ selector method facet, state = owningState selector method facet) ?_
    (fun _ member => absurd member (blank ▸ List.not_mem_nil))
  intro stage draft operation acts holds
  cases acts with
  | declare among =>
      intro state member
      rcases Draft.mem_states_addState member with earlier | rfl
      · exact holds state earlier
      · exact .inl among
  | own method writes =>
      intro state member
      rcases Draft.mem_states_addState member with earlier | rfl
      · exact holds state earlier
      · exact .inr ⟨_, method, _, rfl⟩
  | _ => rwa [Draft.perform_states _ fun _ same => Draft.Operation.noConfusion same]

/-- Before functions are added, only variables of the script have states. -/
theorem states_functionsDraft (blank : draft.states = []) :
    ∀ state ∈ (functionsDraft facts draft).states, state ∈ variableStates facts := by
  have kept : (functionsDraft facts draft).states = (declarations facts draft).states :=
    states_runStages [.startup, .listeners, .requests, .animations] (by decide) (by decide) _
  rw [kept]
  refine (runs_declarations draft).preserves
    (fun draft => ∀ state ∈ draft.states, state ∈ variableStates facts) ?_
    (fun _ member => absurd member (blank ▸ List.not_mem_nil))
  intro draft operation acts holds
  cases acts with
  | declare among =>
      intro state member
      rcases Draft.mem_states_addState member with earlier | rfl
      · exact holds state earlier
      · exact among

/-- Functions are added once it is known which of them have become handlers. -/
theorem claimed_functionsDraft (facts : Facts) (draft : Draft) :
    (Stage.runAll facts draft).claimed = (functionsDraft facts draft).claimed :=
  claimed_runStages [.functions, .mutations, .references] (by decide) _

theorem functions_functionsDraft (facts : Facts) (draft : Draft) :
    (functionsDraft facts draft).functions = draft.functions :=
  functions_runStages beforeFunctions (by decide) draft

theorem functions_runAll_eq (facts : Facts) (draft : Draft) :
    (Stage.runAll facts draft).functions =
      (functions facts (functionsDraft facts draft)).functions :=
  functions_runStages [.mutations, .references] (by decide) _

/-- A function is one of the script that has not become a handler. -/
theorem functions_runAll (blank : draft.functions = []) :
    ∀ function ∈ (Stage.runAll facts draft).functions, ∃ name place,
      (name, place) ∈ facts.statements.flatMap definedFunctions ∧
        name ∉ (Stage.runAll facts draft).claimed ∧
        function = namedFunction facts (Renderer.of facts none) name place := by
  have start := (functions_functionsDraft facts draft).trans blank
  rw [claimed_functionsDraft, functions_runAll_eq]
  -- Claims are settled by now, so that the functions are compared with what is claimed in the end.
  refine ((runs_functions (functionsDraft facts draft)).preserves (fun later =>
    later.claimed = (functionsDraft facts draft).claimed ∧
      ∀ function ∈ later.functions, ∃ name place,
        (name, place) ∈ facts.statements.flatMap definedFunctions ∧
          name ∉ (functionsDraft facts draft).claimed ∧
          function = namedFunction facts (Renderer.of facts none) name place) ?_
    ⟨rfl, fun _ member => absurd member (start ▸ List.not_mem_nil)⟩).2
  rintro later operation acts ⟨claims, holds⟩
  cases acts with
  | @define name place defined unclaimed =>
      refine ⟨?_, ?_⟩
      · exact (later.perform_claimed fun _ same => Draft.Operation.noConfusion same).trans claims
      · intro function member
        rcases Draft.mem_functions_addFunction member with earlier | rfl
        · exact holds function earlier
        · rw [Draft.isClaimed, claims, List.contains_eq_mem, decide_eq_false_iff_not] at unclaimed
          exact ⟨name, place, defined, unclaimed, rfl⟩

end Result

end Pass
end Hookify
