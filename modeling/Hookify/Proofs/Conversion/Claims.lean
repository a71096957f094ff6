import Hookify.Proofs.Conversion.Effects
import Hookify.Proofs.Conversion.Functions
import Hookify.Proofs.Pass.Sources

namespace Hookify

open Script Selection

/-!
# Functions that become handlers

A function that has become a handler is left out of the functions of the
component, so nothing should call it any more.  All code of a component is made
of sources.  The name of such a function is in a source only where the script
passes it to a method that binds events, but not as a handler that is converted,
or where it stands for itself in an object.
-/

/-! ## The code of a component -/

/-- All code of the component is made of sources, apart from the code that is written for
handlers and the first values of facets. -/
structure Component.MadeFrom (component : Component) (facts : Facts) : Prop where
  effects : ∀ effect ∈ component.effects,
    (∃ places : List Place, (∀ place ∈ places, Pass.Source facts place) ∧
      effect.code = String.intercalate "\n" (places.map (Pass.startCode facts))) ∨
    ∃ handler ∈ component.handlers, effect.code = handler.listenerCode
  handlers : ∀ handler ∈ component.handlers, ∃ place, Pass.Source facts place ∧
    ((∃ delegate, (handler.parameters, handler.body) =
      Pass.handlerOfFunction facts delegate place) ∨ handler.body = place.text ++ "(event);")
  functions : ∀ function ∈ component.functions, ∃ name place, Pass.Source facts place ∧
    function = Pass.asFunction facts name place
  states : ∀ state ∈ component.states,
    (∃ place, Pass.Source facts place ∧ state.initial = Pass.startCode facts place) ∨
      state.initial = "undefined" ∨ ∃ facet method, state.initial = Pass.firstValue facet method

namespace Pass

variable {tree : Node}

/-- A handler is made of the function that is written or claimed for it, or calls what is
written. -/
theorem exists_source_of_handles {handler : Handler}
    (handles : Handles (Facts.ofTree tree) handler) :
    ∃ place, Source (Facts.ofTree tree) place ∧
      ((∃ delegate, (handler.parameters, handler.body) =
        handlerOfFunction (Facts.ofTree tree) delegate place) ∨
          handler.body = place.text ++ "(event);") := by
  rcases handles with ⟨⟨target, binding⟩, binds, parts⟩
  cases source : handlerSource (Facts.ofTree tree) binding.handler with
  | inline function =>
      have same := handlerSource_eq_inline source
      rw [source, handlerParts?, same] at parts
      rw [same] at source
      exact ⟨_, .handler binds (.inl source), .inl ⟨_, (Option.some.inj parts).symm⟩⟩
  | claimed name function =>
      have defined := (handlerSource_eq_claimed source).1
      rw [source, handlerParts?] at parts
      exact ⟨function, .function (Facts.mem_definedFunctions_of_function? defined),
        .inl ⟨_, (Option.some.inj parts).symm⟩⟩
  | called code =>
      have same := handlerSource_eq_called source
      rw [source, handlerParts?, same] at parts
      rw [same] at source
      exact ⟨_, .handler binds (.inr source),
        .inr (Prod.mk.inj (Option.some.inj parts)).2.symm⟩
  | notCallable =>
      rw [source, handlerParts?] at parts
      cases parts

end Pass

section Claims

variable (document : Document) (settings : Settings) (tree : Node)

theorem claimed_draft : (document.draft settings).claimed = [] := by
  rw [Document.draft]
  cases document.kind <;> rfl

theorem madeFrom_componentOf :
    (document.componentOf settings tree).MadeFrom (Facts.ofTree tree) := by
  have blank := document.blank_draft settings
  refine ⟨?_, ?_, ?_, ?_⟩
  · intro effect member
    have from_ := (exists_effect_iff document settings tree (· = effect.code)).mp
      ⟨effect, member, rfl⟩
    rcases from_ with ⟨started, listed, same⟩ | ⟨handler, among, same⟩
    · rcases Pass.exists_kept_of_mem_startEffects listed with ⟨statements, kept, made⟩
      exact .inl ⟨statements, fun place inside => .statement (kept place inside), same ▸ made⟩
    · exact .inr ⟨handler, among, same.symm⟩
  · intro handler member
    exact Pass.exists_source_of_handles (Pass.handles_runAll blank.handlers handler member)
  · intro function member
    rcases Pass.functions_runAll blank.functions function member with ⟨name, place, defined, _, rfl⟩
    exact ⟨name, place, .function defined, rfl⟩
  · intro state member
    rcases Pass.states_runAll blank.states state member with declared | owning
    · rcases Pass.mem_variableStates.mp declared with
        ⟨statement, among, isVariables, value, declares, found⟩
      rw [Pass.variableState?] at found
      split at found
      · cases found
      · have initial := congrArg StateVariable.initial (Option.some.inj found)
        cases value with
        | none => exact .inr (.inl initial.symm)
        | some place => exact .inl ⟨place, .value among isVariables declares, initial.symm⟩
    · rcases owning with ⟨selector, method, facet, rfl⟩
      exact .inr (.inr ⟨facet, method, rfl⟩)

/-- A claimed function is none of the functions of the component.  Its name is left in the code only
at places that are no handlers of scopes, and where it stands as a variable it is then passed to
another method that binds events.  If every mention of the function is such a handler, its name is
nowhere in the code. -/
theorem claimed_function_remains {name : String}
    (claimed : name ∈ (Stage.runAll (Facts.ofTree tree) (document.draft settings)).claimed) :
    let facts := Facts.ofTree tree
    let component := document.componentOf settings tree
    component.MadeFrom facts ∧ (∀ function ∈ component.functions, function.name ≠ name) ∧
      (∀ place, Pass.Remains facts name place →
        (∀ entry ∈ Pass.eventBindings facts, entry.2.handler ≠ place) ∧
          (place.kind = .identifier → Pass.isBindingArgument place = true)) ∧
      ((∀ place ∈ facts.root.walk, Pass.Mentions name place →
          ∃ entry ∈ Pass.eventBindings facts, entry.2.handler = place) →
        ∀ place, ¬ Pass.Remains facts name place) := by
  intro facts component
  have blank := document.blank_draft settings
  rcases Pass.claimed_runAll (claimed_draft document settings) name claimed with
    ⟨entry, _, function, source⟩
  rcases Pass.handlerSource_eq_claimed source with ⟨defined, unused⟩
  have notBound : ∀ place, Pass.Remains facts name place →
      (∀ entry ∈ Pass.eventBindings facts, entry.2.handler ≠ place) ∧
        (place.kind = .identifier → Pass.isBindingArgument place = true) :=
    fun _ remains => remains.not_bound defined unused
  refine ⟨madeFrom_componentOf document settings tree, ?_, notBound, ?_⟩
  · rintro function member rfl
    rcases Pass.functions_runAll blank.functions function member with ⟨_, _, _, unclaimed, rfl⟩
    exact unclaimed claimed
  · intro converted place remains
    rcases remains with ⟨mentions, source, isSource, inside⟩
    rcases isSource.exists_statement with ⟨statement, member, _, within, _⟩
    have onWalk := Place.mem_walk_trans (Facts.mem_walk_of_statements member)
      (Place.mem_walk_trans within inside)
    rcases converted place onWalk mentions with ⟨entry, binds, same⟩
    exact (notBound place ⟨mentions, source, isSource, inside⟩).1 entry binds same

end Claims

/-- A function that is only passed to one binding of a scope is gone with its name. -/
theorem claimed_function_gone_of_click :
    let document := Document.new
      "function save() \x7b store(); \x7d\n$('#a').click(save);" ⟨"save.js"⟩
    let tree := parse document.script
    let facts := Facts.ofTree tree
    "save" ∈ (Stage.runAll facts (document.draft {})).claimed ∧
      (∀ place ∈ facts.root.walk, Pass.Mentions "save" place →
        ∃ entry ∈ Pass.eventBindings facts, entry.2.handler = place) ∧
      ∀ place, ¬ Pass.Remains facts "save" place := by
  intro document tree facts
  have run : "save" ∈ (Stage.runAll facts (document.draft {})).claimed ∧
      ∀ place ∈ facts.root.walk, Pass.Mentions "save" place →
        ∃ entry ∈ Pass.eventBindings facts, entry.2.handler.path = place.path := by
    decide +kernel
  have converted : ∀ place ∈ facts.root.walk, Pass.Mentions "save" place →
      ∃ entry ∈ Pass.eventBindings facts, entry.2.handler = place := by
    intro place inside mentions
    rcases run.2 place inside mentions with ⟨entry, binds, paths⟩
    exact ⟨entry, binds, Place.eq_of_path (Pass.mem_walk_of_eventBindings binds) inside paths⟩
  exact ⟨run.1, converted, (claimed_function_remains document {} tree run.1).2.2.2 converted⟩

/-- A function is claimed although an object still names it: the component has a state with the
name for a value, and nothing that has the name. -/
theorem not_gone_of_object_shorthand :
    let document := Document.new
      ("function save() \x7b store(); \x7d\n$('#a').click(save);\n" ++
        "var api = \x7b save \x7d;") ⟨"save.js"⟩
    let tree := parse document.script
    let facts := Facts.ofTree tree
    let component := document.componentOf {} tree
    "save" ∈ (Stage.runAll facts (document.draft {})).claimed ∧ component.functions = [] ∧
      (∃ place, Pass.Remains facts "save" place) ∧
      component.states.map (·.initial) = ["\x7b save \x7d"] ∧
      "save" ∈ Identifier.referenced "\x7b save \x7d" := by
  intro document tree facts component
  have run : (facts.statements.any fun statement => statement.kind.isVariables &&
        (declarators statement).any fun declared => declared.2.any fun value =>
          value.walk.any fun place => decide (Pass.Mentions "save" place)) = true ∧
      "save" ∈ (Stage.runAll facts (document.draft {})).claimed ∧ component.functions = [] ∧
      component.states.map (·.initial) = ["\x7b save \x7d"] ∧
      "save" ∈ Identifier.referenced "\x7b save \x7d" := by
    decide +kernel
  rcases run with ⟨found, claimed, functions, states, refers⟩
  rcases List.any_eq_true.mp found with ⟨statement, member, both⟩
  rcases Bool.and_eq_true _ _ ▸ both with ⟨isVariables, declared⟩
  rcases List.any_eq_true.mp declared with ⟨⟨name, value⟩, declares, inValue⟩
  rcases Option.any_eq_true _ _ |>.mp inValue with ⟨source, rfl, mentioned⟩
  rcases List.any_eq_true.mp mentioned with ⟨place, inside, mentions⟩
  exact ⟨claimed, functions, ⟨place, of_decide_eq_true mentions, source,
    .value member isVariables declares, inside⟩, states, refers⟩

end Hookify
