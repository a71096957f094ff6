import Hookify.Component.Draft
import Hookify.Renderer.Replace

namespace Hookify
namespace Pass

open Script Selection

/-!
# Code that runs at the start

The statements of scopes that no other pass takes care of become effects that
run when the component is mounted.  All statements at the top level share one
effect; each callback for the ready page has its own.  A request gets an effect
to itself.
-/

/-- An expression binds an event to something that exists outside of handlers. -/
def bindsEvents (facts : Facts) (expression : Place) : Bool :=
  match facts.chain? expression with
  | some chain => chain.target != .this && chain.effective.any (·.role == .binding)
  | none => false

/-- A statement of a scope that another pass takes care of. -/
def isClaimed (facts : Facts) (statement : Place) : Bool :=
  match statement.kind with
  | .functionDeclaration | .generatorFunctionDeclaration => true
  | .lexicalDeclaration | .variableDeclaration => isSimpleDeclaration statement
  | .importStatement | .emptyStatement => true
  | .expressionStatement =>
      match statementExpression? statement with
      | none => true
      | some expression =>
          expression.kind == .string || introducesScope statement || bindsEvents facts expression
  | _ => false

/-- What the effect of a request does; none if the statement is no request. -/
def fetchDescription? (facts : Facts) (statement : Place) : Option String := do
  let expression ← statementExpression? statement
  let request ← facts.request? expression
  let url := request.urlText
  if url.isEmpty then return "Load remote data on mount"
  else return "Load data from " ++ url ++ " on mount"

/-- The code that a scope runs at the start: plain statements, and requests with descriptions. -/
structure ScopeCode where
  kind : ScopeKind
  statements : List String
  fetches : List (String × String)

/-- The code that a scope runs at the start. -/
def scopeCode (facts : Facts) (renderer : Renderer) (scope : Scope) : ScopeCode :=
  let remaining := (statementsOf scope.body).filter (! isClaimed facts ·)
  { kind := scope.kind
    statements := remaining.filterMap fun statement =>
      if (fetchDescription? facts statement).isSome then none
      else some (renderer.fragment statement)
    fetches := remaining.filterMap fun statement =>
      (fetchDescription? facts statement).map fun description =>
        (renderer.fragment statement, description) }

/-- Add an effect for statements, if there are any. -/
def addStatements (draft : Draft) (statements : List String) (description : String) : Draft :=
  if statements.isEmpty then draft
  else draft.addMountEffect (String.intercalate "\n" statements) description

/-- Add the effects of one scope. The statements of the top level have been added before. -/
def addScopeCode (draft : Draft) (code : ScopeCode) : Draft :=
  let own := if code.kind == .ready then code.statements else []
  let mounted := addStatements draft own "Run once on mount (converted from a ready handler)"
  code.fetches.foldl
    (fun draft (text, description) => draft.addFetchEffect text description) mounted

/-- Add the effects of all scopes. -/
def startup (facts : Facts) (draft : Draft) : Draft :=
  let codes := facts.scopes.map (scopeCode facts (Renderer.of facts none))
  let topLevel := (codes.filter (·.kind == .topLevel)).flatMap (·.statements)
  codes.foldl addScopeCode
    (addStatements draft topLevel "Run top-level statements once on mount")

end Pass
end Hookify
