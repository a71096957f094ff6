import Hookify.Proofs.Conversion.Effects
import Hookify.Proofs.Pass.Start

namespace Hookify

open Script

/-!
# What becomes of the code that waits for the page

A statement that introduces a scope is left out of the code of the start; what
it would run is found again as the statements of its scope.  This takes two
decisions, one about the callback and one about its body, and they agree only
on bodies that are blocks.  A callback that is an arrow function with an
expression for a body is left out by the one and not found by the other.
-/

namespace Component

/-- The place stands in a statement of the start, and the code of that statement is part of the
code of an effect. -/
def RunsAtStart (component : Component) (facts : Facts) (place : Place) : Prop :=
  ∃ statement ∈ Pass.keptStatements facts, place ∈ statement.walk ∧
    ∃ effect ∈ component.effects, Text.occursIn (Pass.startCode facts statement) effect.code = true

end Component

section Start

variable (document : Document) (settings : Settings) (tree : Node)

theorem runsAtStart_of_kept {statement : Place}
    (kept : statement ∈ Pass.keptStatements (Facts.ofTree tree)) :
    (document.componentOf settings tree).RunsAtStart (Facts.ofTree tree) statement := by
  have started := Pass.exists_startEffect_of_mem_kept kept
  have occurs := (exists_effect_iff document settings tree fun code =>
    Text.occursIn (Pass.startCode (Facts.ofTree tree) statement) code = true).mpr (.inl started)
  exact ⟨statement, kept, statement.mem_walk_self, occurs⟩

/-- The body that a statement introduces is among the scopes, or runs at the start as a part of
another statement, exactly if it is a block; what runs at the start are the statements of scopes
that no other pass takes care of, all of them and nothing else. -/
theorem introduced_body_converted_iff {statement body : Place}
    (member : statement ∈ (Facts.ofTree tree).statements)
    (introduces : introducesScope statement = true)
    (introduced : introducedBody? statement = some body) :
    let facts := Facts.ofTree tree
    let component := document.componentOf settings tree
    (((∃ scope ∈ facts.scopes, scope.body = body) ∨ component.RunsAtStart facts body) ↔
        body.kind = .statementBlock) ∧
      (∀ kept ∈ Pass.keptStatements facts, component.RunsAtStart facts kept) ∧
      ∀ effect ∈ component.startEffects, ∃ statements : List Place,
        (∀ kept ∈ statements, kept ∈ Pass.keptStatements facts) ∧
          effect.code = String.intercalate "\n" (statements.map (Pass.startCode facts)) := by
  intro facts component
  refine ⟨⟨?_, ?_⟩, fun _ => runsAtStart_of_kept document settings tree, ?_⟩
  · rintro (among | ⟨other, kept, inside, _⟩)
    · exact (Facts.exists_scope_iff member introduced).mp among
    · by_contra expression
      have plain : scopeOf? statement = none := by
        by_contra present
        rcases Option.ne_none_iff_exists'.mp present with ⟨scope, found⟩
        have same := (exists_scopeOf?_iff.mp ⟨scope, found, rfl⟩)
        rw [introduced] at same
        exact expression (Option.some.inj same.1 ▸ same.2)
      rcases Pass.mem_keptStatements.mp kept with ⟨otherMember, unclaimed⟩
      have same := Facts.eq_of_mem_statements member otherMember plain
        (Pass.scopeOf?_eq_none_of_kept kept) (mem_walk_of_introducedBody? introduced) inside
      rw [← same, Pass.isClaimed_of_introducesScope introduces] at unclaimed
      cases unclaimed
  · intro block
    exact .inl ((Facts.exists_scope_iff member introduced).mpr block)
  · intro effect isStart
    have codes := startCodes_componentOf document settings tree
    have code := List.mem_map_of_mem (f := (·.code)) isStart
    rw [codes] at code
    rcases List.mem_map.mp code with ⟨started, listed, same⟩
    rcases Pass.exists_kept_of_mem_startEffects listed with ⟨statements, kept, made⟩
    exact ⟨statements, kept, same ▸ made⟩

end Start

/-- The body of a callback that is written as a function is among the scopes. -/
theorem introduced_body_converted_of_function :
    let document := Document.new "$(function () \x7b init(); \x7d);" ⟨"ready.js"⟩
    let tree := parse document.script
    let facts := Facts.ofTree tree
    let component := document.componentOf {} tree
    ∃ statement ∈ facts.statements, introducesScope statement = true ∧
      ∃ body, introducedBody? statement = some body ∧ body.kind = .statementBlock ∧
        ((∃ scope ∈ facts.scopes, scope.body = body) ∨ component.RunsAtStart facts body) := by
  intro document tree facts component
  have run : (facts.statements.any fun statement => introducesScope statement &&
      (introducedBody? statement).any (·.kind == .statementBlock)) = true := by
    decide +kernel
  rcases List.any_eq_true.mp run with ⟨statement, member, both⟩
  rw [Bool.and_eq_true, Option.any_eq_true] at both
  rcases both with ⟨introduces, body, introduced, block⟩
  rw [beq_iff_eq] at block
  have converted := introduced_body_converted_iff document {} tree member introduces introduced
  exact ⟨statement, member, introduces, body, introduced, block, converted.1.mpr block⟩

/-- A callback that is an arrow function with an expression for a body is lost: its body is not
among the scopes, and the component has no effects at all. -/
theorem not_converted_of_expression_body :
    let document := Document.new "$(() => init());" ⟨"ready.js"⟩
    let tree := parse document.script
    let facts := Facts.ofTree tree
    let component := document.componentOf {} tree
    component.effects = [] ∧ ∃ statement ∈ facts.statements, introducesScope statement = true ∧
      ∃ body, introducedBody? statement = some body ∧ body.text = "init()" ∧
        ¬ ((∃ scope ∈ facts.scopes, scope.body = body) ∨ component.RunsAtStart facts body) := by
  intro document tree facts component
  have run : component.effects = [] ∧ (facts.statements.any fun statement =>
      introducesScope statement && (introducedBody? statement).any fun body =>
        body.text == "init()" && facts.scopes.all (·.body.path != body.path)) = true := by
    decide +kernel
  rcases run with ⟨none, found⟩
  rcases List.any_eq_true.mp found with ⟨statement, member, both⟩
  rw [Bool.and_eq_true, Option.any_eq_true] at both
  rcases both with ⟨introduces, body, introduced, apart⟩
  rw [Bool.and_eq_true, beq_iff_eq, List.all_eq_true] at apart
  rcases apart with ⟨text, others⟩
  refine ⟨none, statement, member, introduces, body, introduced, text, ?_⟩
  rintro (⟨scope, among, rfl⟩ | ⟨_, _, _, effect, runs, _⟩)
  · exact absurd (others scope among) (by rw [bne_self_eq_false]; exact Bool.false_ne_true)
  · rw [none] at runs
    exact absurd runs List.not_mem_nil

open Selection

/-!
## Chains that bind events and do something else

A statement whose chain binds an event is left to the listeners, and these only
take the calls that bind.  A chain can do more: in between it may show an
element or trigger an event.  Such a call is in no statement that runs at the
start, and so its step is in an effect only if something else has the same code.
-/

/-- A call with the role writes to elements or triggers their events. -/
def Selection.Role.isWrite : Role → Bool
  | .mutation _ | .attributeWrite | .trigger => true
  | .binding | .read | .animation | .traversal | .ready | .unknown => false

namespace Renderer

/-- A call that writes becomes a step, in a statement or elsewhere. -/
theorem exists_step_of_isWrite (renderer : Renderer) (target : Target) (element : Element)
    {call : MethodCall} (writes : call.role.isWrite = true) :
    ∃ text, ∀ isStatement, renderer.step? target element isStatement call = some text := by
  simp only [step?]
  cases role : call.role with
  | mutation facet =>
      cases target with
      | selector selector => exact ⟨_, fun _ => rfl⟩
      | page object => exact ⟨_, fun _ => rfl⟩
      | this => exact ⟨_, fun _ => rfl⟩
  | attributeWrite => exact ⟨_, fun _ => rfl⟩
  | trigger => exact ⟨_, fun _ => rfl⟩
  | _ =>
      rw [role] at writes
      cases writes

end Renderer

/-- A search among the statements that bind events, for a call with a step. -/
def findsStep (facts : Facts) (wanted : MethodCall → Bool) (text : String) : Bool :=
  let renderer := Renderer.of facts none
  facts.statements.any fun statement => (Pass.bindingChain? facts statement).any fun chain =>
    chain.effective.any (·.role == .binding) && chain.effective.any fun call => wanted call &&
      renderer.step? chain.target (renderer.element chain.target) true call == some text

theorem exists_of_findsStep {facts : Facts} {wanted : MethodCall → Bool} {text : String}
    (finds : findsStep facts wanted text = true) :
    let renderer := Renderer.of facts none
    ∃ statement ∈ facts.statements, ∃ chain, Pass.bindingChain? facts statement = some chain ∧
      chain.effective.any (·.role == .binding) = true ∧
      ∃ call ∈ chain.effective, wanted call = true ∧
        renderer.step? chain.target (renderer.element chain.target) true call = some text := by
  rcases List.any_eq_true.mp finds with ⟨statement, member, chained⟩
  rcases Option.any_eq_true _ _ |>.mp chained with ⟨chain, found, both⟩
  rcases Bool.and_eq_true _ _ ▸ both with ⟨binds, some⟩
  rcases List.any_eq_true.mp some with ⟨call, effective, steps⟩
  rw [Bool.and_eq_true, beq_iff_eq] at steps
  exact ⟨statement, member, chain, found, binds, call, effective, steps⟩

/-- A call that writes and stands in a chain that also binds an event is in no statement that runs
at the start.  Its step occurs in an effect exactly if it occurs in the code of such a statement,
which is another one, or in the code that adds a handler. -/
theorem left_out_step_occurs_iff (document : Document) (settings : Settings) (tree : Node)
    {statement : Place} {chain : Chain} {call : MethodCall}
    (member : statement ∈ (Facts.ofTree tree).statements)
    (found : Pass.bindingChain? (Facts.ofTree tree) statement = some chain)
    (binds : chain.effective.any (·.role == .binding) = true) (effective : call ∈ chain.effective)
    (writes : call.role.isWrite = true) :
    let facts := Facts.ofTree tree
    let component := document.componentOf settings tree
    let renderer := Renderer.of facts none
    (∀ kept ∈ Pass.keptStatements facts, call.place ∉ kept.walk) ∧
      ∃ text, (∀ isStatement, renderer.step? chain.target (renderer.element chain.target)
          isStatement call = some text) ∧
        ((∃ effect ∈ component.effects, Text.occursIn text effect.code = true) ↔
          (∃ effect ∈ Pass.startEffects facts, Text.occursIn text effect.code = true) ∨
            ∃ handler ∈ component.handlers, Text.occursIn text handler.listenerCode = true) := by
  intro facts component renderer
  rcases Pass.mem_callsFrom_of_bindingChain? found with ⟨expression, inside, calls⟩
  have isCall := calls ▸ mem_calls_of_effective effective
  have within := Place.mem_walk_trans inside (arguments_of_mem_callsFrom isCall).2
  rcases renderer.exists_step_of_isWrite chain.target (renderer.element chain.target) writes with
    ⟨text, step⟩
  exact ⟨fun kept isKept => Pass.not_mem_walk_of_kept member found binds isKept within, text, step,
    exists_effect_iff document settings tree fun code => Text.occursIn text code = true⟩

/-- The step of a call that is left out occurs in an effect if another statement has it too. -/
theorem left_out_step_occurs_of_twin :
    let document := Document.new "$('#a').show().click(f);\n$('#a').show();" ⟨"show.js"⟩
    let tree := parse document.script
    let facts := Facts.ofTree tree
    let renderer := Renderer.of facts none
    let component := document.componentOf {} tree
    let text := "setAVisible(true)"
    ∃ statement ∈ facts.statements, ∃ chain, Pass.bindingChain? facts statement = some chain ∧
      chain.effective.any (·.role == .binding) = true ∧
      ∃ call ∈ chain.effective, call.role.isWrite = true ∧
        renderer.step? chain.target (renderer.element chain.target) true call = some text ∧
        (∀ kept ∈ Pass.keptStatements facts, call.place ∉ kept.walk) ∧
        ∃ effect ∈ component.effects, Text.occursIn text effect.code = true := by
  intro document tree facts renderer component text
  have run : findsStep facts (·.role.isWrite) text = true ∧
      ∃ effect ∈ Pass.startEffects facts, Text.occursIn text effect.code = true := by
    decide +kernel
  rcases exists_of_findsStep run.1 with
    ⟨statement, member, chain, found, binds, call, effective, writes, steps⟩
  rcases left_out_step_occurs_iff document {} tree member found binds effective writes with
    ⟨apart, other, step, occurs⟩
  have same : other = text := Option.some.inj ((step true).symm.trans steps)
  rw [same] at occurs
  exact ⟨statement, member, chain, found, binds, call, effective, writes, steps, apart,
    occurs.mpr (.inl run.2)⟩

/-- The class that the first call of a chain adds is lost if the second one binds an event. -/
theorem not_occurs_step_of_binding_chain :
    let document := Document.new "$('#a').addClass('on').click(f);" ⟨"class.js"⟩
    let tree := parse document.script
    let facts := Facts.ofTree tree
    let renderer := Renderer.of facts none
    let component := document.componentOf {} tree
    let text := "setAClassName((className) => [className, 'on'].filter(Boolean).join(' '))"
    (∃ statement ∈ facts.statements, ∃ chain, Pass.bindingChain? facts statement = some chain ∧
      chain.effective.any (·.role == .binding) = true ∧
      ∃ call ∈ chain.effective, call.role = .mutation .className ∧
        renderer.step? chain.target (renderer.element chain.target) true call = some text) ∧
      ¬ ∃ effect ∈ component.effects, Text.occursIn text effect.code = true := by
  intro document tree facts renderer component text
  have run : findsStep facts (·.role == .mutation .className) text = true ∧
      ¬ ∃ effect ∈ component.effects, Text.occursIn text effect.code = true := by
    decide +kernel
  refine ⟨?_, run.2⟩
  rcases exists_of_findsStep run.1 with
    ⟨statement, member, chain, found, binds, call, effective, role, steps⟩
  exact ⟨statement, member, chain, found, binds, call, effective, beq_iff_eq.mp role, steps⟩

end Hookify
