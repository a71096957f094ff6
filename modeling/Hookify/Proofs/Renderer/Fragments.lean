import Hookify.Proofs.Facts.Scopes
import Hookify.Proofs.Renderer.Locality
import Hookify.Proofs.Script.Trees
import Hookify.Proofs.Text.Relined

namespace Hookify
namespace Renderer

open Script
open Text (IsFramed)

/-!
# Idioms that are cut out

The replacement of an idiom gets the margin of the line on which the idiom
stands, and whoever cuts the idiom out takes that margin off again.  Both are
the margin of the same line, so that nothing but the line ends is changed.  A
statement that begins with an idiom begins with the same text when it is cut
out.
-/

variable {facts : Facts} {this : Option String} {place : Place} {text : String}

/-- Comments are no idioms. -/
theorem kind_ne_comment_of_idiom? {renderer : Renderer}
    (isIdiom : renderer.idiom? place = some text) : place.kind ≠ .comment := by
  intro comment
  rw [idiom?, comment] at isIdiom
  cases isIdiom

theorem render_without_of_idiom? {skips : Place → Bool} (kept : skips place = false)
    (small : place.node.size ≤ facts.root.node.size)
    (isIdiom : (without facts skips this).idiom? place = some text) :
    (without facts skips this).render place =
      Text.indentContinuation (String.ofList place.node.margin.chars) text := by
  have plain := kind_ne_comment_of_idiom? isIdiom
  rw [render_without facts this small kept, replacement?, if_neg (mt beq_iff_eq.mp plain), isIdiom]
  rfl

theorem render_of_idiom? (small : place.node.size ≤ facts.root.node.size)
    (isIdiom : (of facts this).idiom? place = some text) :
    (of facts this).render place =
      Text.indentContinuation (String.ofList place.node.margin.chars) text := by
  rw [← without_nothing] at isIdiom ⊢
  exact render_without_of_idiom? rfl small isIdiom

/-- An idiom that is cut out is its replacement, with the line ends unified twice. -/
theorem fragment_without_of_idiom? {skips : Place → Bool} (kept : skips place = false)
    (small : place.node.size ≤ facts.root.node.size)
    (isIdiom : (without facts skips this).idiom? place = some text) :
    (without facts skips this).fragment place = Text.relined (Text.relined text) := by
  rw [fragment, render_without_of_idiom? kept small isIdiom]
  exact Text.dedentContinuation_indentContinuation place.node.margin.all_margin text

theorem fragment_of_idiom? (small : place.node.size ≤ facts.root.node.size)
    (isIdiom : (of facts this).idiom? place = some text) :
    (of facts this).fragment place = Text.relined (Text.relined text) := by
  rw [← without_nothing] at isIdiom ⊢
  exact fragment_without_of_idiom? rfl small isIdiom

/-! ## Statements that begin with an idiom -/

/-- The expression of a statement that begins with it is the first child. -/
theorem eq_first_of_beginsWith {statement expression : Place}
    (isExpression : statementExpression? statement = some expression)
    (begins : statement.node.BeginsWith expression.node) :
    expression = ⟨expression.node, statement.node :: statement.ancestors, 0 :: statement.path⟩ := by
  obtain ⟨behind, parts⟩ := begins.first
  have first : ∃ others, statement.children =
      ⟨expression.node, statement.node :: statement.ancestors, 0 :: statement.path⟩ :: others := by
    have nodes : statement.node.children = expression.node :: nodesOf behind := by
      change nodesOf statement.node.parts = _
      rw [parts, nodesOf_cons_child]
    rw [Place.children, nodes, List.zipIdx_cons, List.map_cons]
    exact ⟨_, rfl⟩
  obtain ⟨others, children⟩ := first
  rw [statementExpression?, if_pos (beq_iff_eq.mpr (kind_of_statementExpression? isExpression))]
    at isExpression
  have named : expression.kind.isNamed = true :=
    (List.mem_filter.mp (List.mem_of_head? isExpression)).2
  rw [Place.namedChildren, children, List.filter_cons_of_pos (by exact named), List.head?_cons]
    at isExpression
  exact (Option.some.inj isExpression).symm

/-- A statement is rendered by rendering the expression that it begins with, and what follows. -/
theorem exists_render_statement {statement expression : Place}
    (small : statement.node.size ≤ facts.root.node.size)
    (isExpression : statementExpression? statement = some expression)
    (begins : statement.node.BeginsWith expression.node) :
    ∃ rest, (of facts this).render statement = (of facts this).render expression ++ rest := by
  have kind := kind_of_statementExpression? isExpression
  have noIdiom : (of facts this).replacement? statement = none := by
    rw [replacement?, idiom?, kind]
    rfl
  obtain ⟨behind, parts⟩ := begins.first
  rw [render_of facts this small, noIdiom, kind, parts, placeParts,
    ← eq_first_of_beginsWith isExpression begins]
  exact ⟨_, rfl⟩

/-- A statement that begins with an idiom begins with its replacement when it is cut out. -/
theorem fragment_statement_of_idiom? {statement expression : Place}
    (small : statement.node.size ≤ facts.root.node.size)
    (isExpression : statementExpression? statement = some expression)
    (begins : statement.node.BeginsWith expression.node)
    (isIdiom : (of facts this).idiom? expression = some text) (framed : IsFramed text.toList) :
    (Text.relined (Text.relined text)).toList <+: ((of facts this).fragment statement).toList := by
  have smaller : expression.node.size ≤ facts.root.node.size := (Nat.le_of_lt
    (Place.size_lt_of_mem_children (mem_children_of_statementExpression? isExpression))).trans small
  obtain ⟨rest, rendered⟩ : ∃ rest,
      (of facts this).render statement = (of facts this).render expression ++ rest :=
    exists_render_statement small isExpression begins
  rw [← fragment_of_idiom? smaller isIdiom, fragment, fragment, rendered,
    render_of_idiom? smaller isIdiom, begins.sameMargin, Text.dedentContinuation,
    Text.toList_overChars, Text.toList_overChars, String.toList_append, Text.indentContinuation,
    Text.toList_overChars]
  exact (framed.indentContinuation _).ends.dedentContinuation_prefix _ _

/-! ## Requests -/

theorem idiom?_of_request? {request : Request} (isCall : place.kind = .callExpression)
    (found : facts.request? place = some request) :
    (of facts this).idiom? place = some ((of facts this).fetch request) := by
  rw [idiom?, isCall]
  change (of facts this).call? place = _
  have same : (of facts this).facts.request? place = some request := found
  rw [call?, same]

theorem ends_of_parenthesis (text : String) : Text.Ends (text ++ ")").toList := by
  rw [String.toList_append]
  exact (Text.ends_singleton (by decide)).append _

theorem ends_continuation (renderer : Renderer) (method : String) (usual : Option String)
    (callback : Place) : Text.Ends (renderer.continuation method usual callback).toList :=
  ends_of_parenthesis _

theorem starts_fetchCall (renderer : Renderer) (request : Request) :
    Text.Starts (renderer.fetchCall request).toList := by
  have named : ∀ text : String, Text.Starts ("fetch(" ++ text).toList := by
    intro text
    rw [String.toList_append]
    exact Text.Starts.append ⟨'f', "etch(".toList, by decide, by decide⟩ _
  rw [fetchCall]
  split
  · split <;> simp only [String.append_assoc] <;> exact named _
  · simp only [String.append_assoc]
    exact named _

/-- A request begins with the name of `fetch` and ends with a parenthesis. -/
theorem isFramed_fetch (renderer : Renderer) (request : Request) :
    IsFramed (renderer.fetch request).toList := by
  have failure : Text.Ends ((request.error.map (renderer.continuation "catch" (some "error"))).getD
      "\n  .catch((error) => \x7b\n    console.error(error);\n  \x7d)").toList := by
    cases request.error with
    | none =>
        exact ends_of_parenthesis "\n  .catch((error) => \x7b\n    console.error(error);\n  \x7d"
    | some callback => exact ends_continuation renderer _ _ callback
  rw [fetch]
  refine ⟨?_, ?_⟩
  · rw [String.append_assoc, String.append_assoc, String.append_assoc, String.toList_append]
    exact (starts_fetchCall renderer request).append _
  · rw [String.toList_append, String.toList_append]
    cases request.complete with
    | none =>
        rw [Option.map_none, Option.getD_none, String.toList_empty, List.append_nil]
        exact failure.append _
    | some callback => exact (ends_continuation renderer _ _ callback).append _

end Renderer
end Hookify
