import Hookify.Proofs.Conversion.Component
import Hookify.Proofs.Pass.Reports

namespace Hookify

open Script Selection

/-!
# Events that a script binds

Whoever converts a script relies on the report for what is left to be done.  A
call that binds events should therefore get a handler, or the report should
say something about its target.

It does so for everything that the listeners recognise as a binding.  But a
call whose arguments name no event, such as one with a variable for the event,
has no bindings at all, and the listeners pass over `$(this)`.  Such a call gets
no handler, and the only warnings about its target are about something else.
-/

namespace Component

/-- A handler of the component has been made for an event that the call binds on a target. -/
def Converts (component : Component) (facts : Facts) (target : Target) (call : MethodCall) : Prop :=
  ∃ binding ∈ Pass.bindingsOf call, ∃ handler ∈ component.handlers,
    Pass.MadeFor facts (target, binding) handler

/-- A warning of the component is about a target, as the report names it. -/
def WarnsAbout (component : Component) (facts : Facts) (target : Target) : Prop :=
  ∃ warning ∈ component.warnings, ∃ other, (other, warning) ∈ Pass.warningsOf facts ∧
    other.label = target.label

end Component

/-- Before the script is read, there are no warnings. -/
theorem warnings_draft (document : Document) (settings : Settings) :
    (document.draft settings).warnings = [] := by
  rw [Document.draft]
  cases document.kind <;> rfl

section Events

variable (document : Document) (settings : Settings) {tree : Node}

/-- Whatever a script is warned of is found in it, about some target. -/
theorem mem_warnings_componentOf {warning : String} :
    warning ∈ (document.componentOf settings tree).warnings ↔
      ∃ target, (target, warning) ∈ Pass.warningsOf (Facts.ofTree tree) :=
  Pass.mem_warnings_runAll (warnings_draft document settings)

theorem warnsAbout_iff (target : Target) :
    (document.componentOf settings tree).WarnsAbout (Facts.ofTree tree) target ↔
      ∃ entry ∈ Pass.warningsOf (Facts.ofTree tree), entry.1.label = target.label := by
  constructor
  · rintro ⟨warning, _, other, listed, same⟩
    exact ⟨(other, warning), listed, same⟩
  · rintro ⟨⟨other, warning⟩, listed, same⟩
    exact ⟨warning, (mem_warnings_componentOf document settings).mpr ⟨other, listed⟩, other, listed,
      same⟩

/-- What has been bound gets its handler or the warning that it cannot be called. -/
theorem handled_or_refused {entry : Target × Pass.Binding}
    (binds : entry ∈ Pass.eventBindings (Facts.ofTree tree)) :
    (∃ handler ∈ (document.componentOf settings tree).handlers,
        Pass.MadeFor (Facts.ofTree tree) entry handler) ∨
      (entry.1, Pass.refusal entry.1 entry.2) ∈ Pass.warningsOf (Facts.ofTree tree) := by
  cases callable : Pass.isCallable (Facts.ofTree tree) entry with
  | true =>
      exact .inl (Pass.exists_handler_of_isCallable (document.blank_draft settings).handlers binds
        callable)
  | false =>
      refine .inr (List.mem_append_left _ (List.mem_map.mpr ⟨entry, ?_, rfl⟩))
      exact List.mem_filter.mpr ⟨binds, by rw [callable]; rfl⟩

/-- The listeners take what a call of a scope binds, unless its target is `$(this)`. -/
theorem mem_eventBindings_of_call {statement expression : Place} {chain : Chain} {call : MethodCall}
    {facts : Facts} (member : statement ∈ facts.statements)
    (plain : introducesScope statement = false)
    (isExpression : statementExpression? statement = some expression)
    (chained : facts.chain? expression = some chain) (effective : call ∈ chain.effective)
    (role : call.role = .binding) (elsewhere : chain.target ≠ .this) {binding : Pass.Binding}
    (binds : binding ∈ Pass.bindingsOf call) :
    (chain.target, binding) ∈ Pass.eventBindings facts := by
  refine Pass.mem_eventBindings.mpr ⟨statement, member, chain, ?_, rfl, ?_⟩
  · rw [Pass.bindingChain?, if_neg (by rw [plain]; exact Bool.false_ne_true), isExpression,
      Option.bind_some, chained]
    exact Option.filter_eq_some_iff.mpr ⟨rfl, bne_iff_ne.mpr elsewhere⟩
  · exact List.mem_flatMap.mpr ⟨call, List.mem_filter.mpr ⟨effective, beq_iff_eq.mpr role⟩, binds⟩

/-- A call in the role of a binding, in a statement of a scope that introduces none, gets a handler
or a warning for each event that it binds, unless its target is `$(this)`.  It is converted, or its
target is warned of, exactly if it names an event and a handler on a target other than `$(this)`, or
something that is warned of is found about a target of the same name. -/
theorem binding_converted_or_reported_iff {statement expression : Place} {chain : Chain}
    {call : MethodCall} (member : statement ∈ (Facts.ofTree tree).statements)
    (plain : introducesScope statement = false)
    (isExpression : statementExpression? statement = some expression)
    (chained : (Facts.ofTree tree).chain? expression = some chain)
    (effective : call ∈ chain.effective) (role : call.role = .binding) :
    let facts := Facts.ofTree tree
    let component := document.componentOf settings tree
    (chain.target ≠ .this → ∀ binding ∈ Pass.bindingsOf call,
      (∃ handler ∈ component.handlers, Pass.MadeFor facts (chain.target, binding) handler) ∨
        Pass.refusal chain.target binding ∈ component.warnings) ∧
      ((component.Converts facts chain.target call ∨ component.WarnsAbout facts chain.target) ↔
        (chain.target ≠ .this ∧ Pass.NamesHandler call) ∨
          ∃ entry ∈ Pass.warningsOf facts, entry.1.label = chain.target.label) := by
  intro facts component
  have handled : chain.target ≠ .this → ∀ binding ∈ Pass.bindingsOf call,
      (∃ handler ∈ component.handlers, Pass.MadeFor facts (chain.target, binding) handler) ∨
        (chain.target, Pass.refusal chain.target binding) ∈ Pass.warningsOf facts :=
    fun elsewhere binding binds => handled_or_refused document settings
      (mem_eventBindings_of_call member plain isExpression chained effective role elsewhere binds)
  refine ⟨fun elsewhere binding binds => (handled elsewhere binding binds).imp_right
    fun listed => (mem_warnings_componentOf document settings).mpr ⟨_, listed⟩, ?_⟩
  rw [warnsAbout_iff, ← Pass.bindingsOf_ne_nil_iff role]
  constructor
  · rintro (⟨binding, binds, handler, _, made⟩ | reported)
    · refine .inl ⟨fun same => ?_, List.ne_nil_of_mem binds⟩
      have listens := made.target
      rw [same] at listens
      exact listens
    · exact .inr reported
  · rintro (⟨elsewhere, binds⟩ | reported)
    · rcases List.exists_mem_of_ne_nil _ binds with ⟨binding, among⟩
      rcases handled elsewhere binding among with ⟨handler, listed, made⟩ | refused
      · exact .inl ⟨binding, among, handler, listed, made⟩
      · exact .inr ⟨_, refused, rfl⟩
    · exact .inr reported

end Events

/-! ## Calls of a script -/

/-- A search for a call that binds events in a statement of a scope. -/
def findsBinding (facts : Facts) (wanted : Chain → MethodCall → Bool) : Bool :=
  facts.statements.any fun statement => ! introducesScope statement &&
    (statementExpression? statement).any fun expression =>
      (facts.chain? expression).any fun chain => chain.effective.any fun call =>
        call.role == .binding && wanted chain call

theorem exists_of_findsBinding {facts : Facts} {wanted : Chain → MethodCall → Bool}
    (finds : findsBinding facts wanted = true) :
    ∃ statement ∈ facts.statements, introducesScope statement = false ∧
      ∃ expression, statementExpression? statement = some expression ∧
        ∃ chain, facts.chain? expression = some chain ∧
          ∃ call ∈ chain.effective, call.role = .binding ∧ wanted chain call = true := by
  rcases List.any_eq_true.mp finds with ⟨statement, member, both⟩
  rcases Bool.and_eq_true _ _ ▸ both with ⟨plain, some⟩
  rcases Option.any_eq_true _ _ |>.mp some with ⟨expression, isExpression, some⟩
  rcases Option.any_eq_true _ _ |>.mp some with ⟨chain, chained, some⟩
  rcases List.any_eq_true.mp some with ⟨call, effective, both⟩
  rw [Bool.and_eq_true, beq_iff_eq] at both
  exact ⟨statement, member, by simpa using plain, expression, isExpression, chain, chained, call,
    effective, both⟩

/-- A click whose event is named by a text is converted. -/
theorem click_converted_or_reported :
    let document := Document.new "$('#a').on('click', go);" ⟨"click.js"⟩
    let tree := parse document.script
    let facts := Facts.ofTree tree
    let component := document.componentOf {} tree
    ∃ statement ∈ facts.statements, introducesScope statement = false ∧
      ∃ expression, statementExpression? statement = some expression ∧
        ∃ chain, facts.chain? expression = some chain ∧
          ∃ call ∈ chain.effective, call.role = .binding ∧
            (component.Converts facts chain.target call ∨
              component.WarnsAbout facts chain.target) := by
  intro document tree facts component
  have run : findsBinding facts (fun chain call => chain.target != .this &&
      ! (Pass.bindingsOf call).isEmpty) = true := by
    decide +kernel
  rcases exists_of_findsBinding run with
    ⟨statement, member, plain, expression, isExpression, chain, chained, call, effective, role, both⟩
  rw [Bool.and_eq_true, bne_iff_ne, Bool.not_eq_true', List.isEmpty_eq_false_iff] at both
  have converted := binding_converted_or_reported_iff document {} member plain isExpression chained
    effective role
  exact ⟨statement, member, plain, expression, isExpression, chain, chained, call, effective, role,
    converted.2.mpr (.inl ⟨both.1, (Pass.bindingsOf_ne_nil_iff role).mp both.2⟩)⟩

/-- An event whose name is in a variable is dropped: there is neither a handler nor a warning. -/
theorem not_converted_or_reported_of_variable :
    let document := Document.new "$('#a').on(eventName, go);" ⟨"variable.js"⟩
    let tree := parse document.script
    let facts := Facts.ofTree tree
    let component := document.componentOf {} tree
    ∃ statement ∈ facts.statements, introducesScope statement = false ∧
      ∃ expression, statementExpression? statement = some expression ∧
        ∃ chain, facts.chain? expression = some chain ∧
          ∃ call ∈ chain.effective, call.role = .binding ∧
            ¬ (component.Converts facts chain.target call ∨
              component.WarnsAbout facts chain.target) := by
  intro document tree facts component
  have run : findsBinding facts (fun _ _ => true) = true ∧ component.handlers = [] ∧
      component.warnings = [] := by
    decide +kernel
  rcases run with ⟨finds, noHandlers, noWarnings⟩
  rcases exists_of_findsBinding finds with
    ⟨statement, member, plain, expression, isExpression, chain, chained, call, effective, role, _⟩
  refine ⟨statement, member, plain, expression, isExpression, chain, chained, call, effective, role,
    ?_⟩
  rintro (⟨_, _, handler, among, _⟩ | ⟨warning, among, _⟩)
  · exact absurd among (noHandlers ▸ List.not_mem_nil)
  · exact absurd among (noWarnings ▸ List.not_mem_nil)

end Hookify
