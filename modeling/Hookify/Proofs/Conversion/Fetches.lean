import Hookify.Proofs.Conversion.Animations
import Hookify.Proofs.Conversion.Effects
import Hookify.Proofs.Pass.Fetches
import Hookify.Proofs.Renderer.Fragments

namespace Hookify

open Script Selection

/-!
# The code of requests

A request that a scope makes is rendered twice: as the statement of an effect
that loads data, and for the record of the request.  The effect has the code of
the statement as it is cut out of the script, which begins with what is recorded
up to the line ends.
-/

section Fetches

variable {facts : Facts} {statement expression : Place} {request : Request}

/-- A request that is a statement of its own is recorded. -/
theorem mem_requests_of_statement (inside : statement ∈ facts.root.walk)
    (isExpression : statementExpression? statement = some expression)
    (found : facts.request? expression = some request) : request ∈ facts.requests := by
  have child := mem_children_of_statementExpression? isExpression
  have plain : isContinued expression = false := by
    rw [isContinued, Place.parent?_of_mem_children child]
    dsimp only
    rw [kind_of_statementExpression? isExpression]
    rfl
  exact List.mem_filterMap.mpr ⟨expression, Place.mem_walk_of_children inside child,
    by rw [plain, if_neg Bool.false_ne_true, found]⟩

/-- The code of a request that is a statement begins with the chain on the call of `fetch`. -/
theorem fetch_prefix_fragment {text : String} {statement expression : Place} {request : Request}
    (among : statement ∈ (Facts.ofTree (parse text)).statements)
    (isExpression : statementExpression? statement = some expression)
    (found : (Facts.ofTree (parse text)).request? expression = some request) :
    let renderer := Renderer.of (Facts.ofTree (parse text)) none
    (Text.relined (Text.relined (renderer.fetch request))).toList <+:
      (renderer.fragment statement).toList := by
  intro renderer
  have inside := Facts.mem_walk_of_statements among
  have isCall : expression.kind = .callExpression :=
    let ⟨_, calls, _⟩ := exists_callsRequestMethod found
    calls.isCall
  have isPart : isRemark expression.node.part = false := by
    have part : expression.node.part.1 = .callExpression := isCall
    grind [isRemark]
  exact Renderer.fragment_statement_of_idiom? (Place.size_le_of_mem_walk inside) isExpression
    (Place.beginsWith_of_mem_children inside (kind_of_statementExpression? isExpression)
      (mem_children_of_statementExpression? isExpression) isPart)
    (Renderer.idiom?_of_request? isCall found) (Renderer.isFramed_fetch renderer request)

end Fetches

section Conversion

variable (document : Document) (settings : Settings) (tree : Node)

theorem remoteCalls_componentOf :
    (document.componentOf settings tree).remoteCalls =
      (Facts.ofTree tree).requests.map
        (Pass.remoteCall (Renderer.of (Facts.ofTree tree) none)) := by
  have blank : (document.draft settings).remoteCalls = [] := by
    rw [Document.draft]
    cases document.kind <;> rfl
  exact Pass.remoteCalls_runAll blank

/-- An idiom that is cut out of a script is its replacement with the line ends unified twice.  That
is the same as once exactly if the lines of the replacement stay when they are read again.  The
effect of a request that is a statement of a scope begins with the code that is recorded of the
request, with the line ends unified in the same way. -/
theorem idioms_cut_out :
    (∀ (tree : Node) (this : Option String) (skips : Place → Bool) (place : Place) (text : String),
      let renderer := Renderer.without (Facts.ofTree tree) skips this
      place ∈ (Place.ofRoot tree).walk → skips place = false → renderer.idiom? place = some text →
        renderer.fragment place = Text.relined (Text.relined text) ∧
          (renderer.fragment place = Text.relined text ↔
            Text.AreRelined (Text.lineChars text.toList))) ∧
    ∀ (document : Document) (settings : Settings),
      let tree := parse document.script
      let facts := Facts.ofTree tree
      let renderer := Renderer.of facts none
      let component := document.componentOf settings tree
      ∀ statement ∈ facts.statements, ∀ expression request,
        statementExpression? statement = some expression →
        facts.request? expression = some request →
          ∃ effect ∈ component.effects, ∃ call ∈ component.remoteCalls,
            effect.trigger = .fetch ∧ effect.code = renderer.fragment statement ∧
            Pass.fetchDescription? facts statement = some effect.description ∧
            call = Pass.remoteCall renderer request ∧
            (Text.relined (Text.relined call.code)).toList <+: effect.code.toList := by
  refine ⟨?_, ?_⟩
  · intro tree this skips place text renderer inside kept isIdiom
    have cut : renderer.fragment place = Text.relined (Text.relined text) :=
      Renderer.fragment_without_of_idiom? kept (Place.size_le_of_mem_walk inside) isIdiom
    exact ⟨cut, by rw [cut, Text.relined_relined_iff]⟩
  · intro document settings tree facts renderer component statement among expression request
      isExpression found
    obtain ⟨description, described, planned⟩ :=
      Pass.exists_fetch_mem_startEffects among isExpression found
    have effects := startEffects_componentOf document settings tree
    have listed : Draft.resolve component.states ⟨.fetch, Pass.startCode facts statement,
        description, some (Pass.startCode facts statement), none⟩ ∈ component.startEffects := by
      rw [effects]
      exact List.mem_map_of_mem planned
    have recorded : Pass.remoteCall renderer request ∈ component.remoteCalls := by
      rw [remoteCalls_componentOf]
      exact List.mem_map_of_mem
        (mem_requests_of_statement (Facts.mem_walk_of_statements among) isExpression found)
    exact ⟨_, Component.mem_effects_iff.mpr (.inl listed), _, recorded, rfl, rfl, described, rfl,
      fetch_prefix_fragment among isExpression found⟩

end Conversion

/-- A search for a request among the statements of the scopes, by its expression and the text that
takes its place. -/
def findsRequest (facts : Facts) (wanted : Place → List Char → Prop)
    [∀ expression text, Decidable (wanted expression text)] : Bool :=
  facts.statements.any fun statement => (statementExpression? statement).any fun expression =>
    (facts.request? expression).any fun request =>
      decide (expression.kind = .callExpression ∧
        wanted expression ((Renderer.of facts none).fetch request).toList)

section Search

variable {facts : Facts} {wanted : Place → List Char → Prop}
variable [∀ expression text, Decidable (wanted expression text)]

theorem exists_of_findsRequest (finds : findsRequest facts wanted = true) :
    ∃ statement ∈ facts.statements, ∃ expression request,
      statementExpression? statement = some expression ∧ facts.request? expression = some request ∧
        (Renderer.of facts none).idiom? expression =
          some ((Renderer.of facts none).fetch request) ∧
        wanted expression ((Renderer.of facts none).fetch request).toList := by
  obtain ⟨statement, among, some⟩ := List.any_eq_true.mp finds
  obtain ⟨expression, isExpression, some⟩ := (Option.any_eq_true _ _).mp some
  obtain ⟨request, found, checks⟩ := (Option.any_eq_true _ _).mp some
  obtain ⟨isCall, isWanted⟩ := of_decide_eq_true checks
  exact ⟨statement, among, expression, request, isExpression, found,
    Renderer.idiom?_of_request? isCall found, isWanted⟩

/-- A request whose lines are not all read again as they are. -/
theorem exists_unlike_of_findsRequest {script : String}
    (finds : findsRequest (Facts.ofTree (parse script)) (fun _ text =>
      ¬ Text.relinedChars (Text.relinedChars text) <+: Text.relinedChars text) = true) :
    let renderer := Renderer.of (Facts.ofTree (parse script)) none
    ∃ statement ∈ (Facts.ofTree (parse script)).statements, ∃ expression text,
      statementExpression? statement = some expression ∧
      renderer.idiom? expression = some text ∧
      renderer.fragment expression ≠ Text.relined text ∧
      ¬ (Text.relined text).toList <+: (renderer.fragment statement).toList := by
  obtain ⟨statement, among, expression, request, isExpression, found, isIdiom, changed⟩ :=
    exists_of_findsRequest finds
  have inside : expression ∈ (Place.ofRoot (parse script)).walk := Place.mem_walk_of_children
    (Facts.mem_walk_of_statements among) (mem_children_of_statementExpression? isExpression)
  have cut := Renderer.fragment_of_idiom? (Place.size_le_of_mem_walk inside) isIdiom
  refine ⟨statement, among, expression, _, isExpression, isIdiom, fun same => changed ?_,
    fun begins => changed ?_⟩
  · have twice := cut.symm.trans same
    exact Text.relinedChars_prefix_of_prefix (by rw [twice]) List.prefix_rfl
  · exact Text.relinedChars_prefix_of_prefix (fetch_prefix_fragment among isExpression found) begins

end Search

/-- A request behind a tab, with a callback of several lines of which one is empty. -/
theorem idioms_cut_out_behind_tab :
    let document := Document.new
      "$(function () \x7b\n\t$.get('/a', function (a) \x7b\n\t\tf(a);\n\n\t\tg();\n\t\x7d);\n\x7d);"
      ⟨"items.js"⟩
    let tree := parse document.script
    let facts := Facts.ofTree tree
    let renderer := Renderer.of facts none
    ∃ statement ∈ facts.statements, ∃ expression request,
      statementExpression? statement = some expression ∧
      facts.request? expression = some request ∧ expression.node.margin.chars = ['\t'] ∧
      renderer.fragment expression = Text.relined (renderer.fetch request) ∧
      ∃ effect ∈ (document.componentOf {} tree).effects, effect.trigger = .fetch ∧
        (Text.relined (renderer.fetch request)).toList <+: effect.code.toList := by
  intro document
  have run : findsRequest (Facts.ofTree (parse document.script)) (fun expression text =>
      expression.node.margin.chars = ['\t'] ∧ Text.AreRelined (Text.lineChars text)) = true := by
    decide +kernel
  -- from here on, nothing needs to know which script it is
  clear_value document
  intro tree facts renderer
  obtain ⟨statement, among, expression, request, isExpression, found, isIdiom, sameMargin,
    areRelined⟩ := exists_of_findsRequest run
  have inside : expression ∈ (Place.ofRoot tree).walk := Place.mem_walk_of_children
    (Facts.mem_walk_of_statements among) (mem_children_of_statementExpression? isExpression)
  have cut := idioms_cut_out.1 tree none (fun _ => false) expression (renderer.fetch request)
    inside rfl (by rw [Renderer.without_nothing]; exact isIdiom)
  rw [Renderer.without_nothing] at cut
  have same : Text.relined (Text.relined (renderer.fetch request)) =
      Text.relined (renderer.fetch request) := (Text.relined_relined_iff _).mpr areRelined
  obtain ⟨effect, isEffect, call, _, trigger, _, _, rfl, begins⟩ :=
    idioms_cut_out.2 document {} statement among expression request isExpression found
  exact ⟨statement, among, expression, request, isExpression, found, sameMargin,
    cut.2.mpr areRelined, effect, isEffect, trigger, same ▸ begins⟩

/-- Of the carriage returns before a line end inside a template, one is taken off each time that
the text is brought into lines: one more than the line ends are unified for. -/
theorem not_relined_once_of_carriage_returns :
    let tree := parse "$.get('/a', \x7b q: `x\r\r\r\ny` \x7d);"
    let facts := Facts.ofTree tree
    let renderer := Renderer.of facts none
    ∃ statement ∈ facts.statements, ∃ expression text,
      statementExpression? statement = some expression ∧
      renderer.idiom? expression = some text ∧
      renderer.fragment expression ≠ Text.relined text ∧
      ¬ (Text.relined text).toList <+: (renderer.fragment statement).toList :=
  exists_unlike_of_findsRequest (by decide +kernel)

end Hookify
