import Hookify.Script.Functions
import Hookify.Selection.Target

namespace Hookify

open Script Selection

/-!
# Scopes

The declarations of a script that become part of a component stand in scopes:
at the top level, in functions that are called on the spot, and in callbacks
that run when the page is ready.  Scopes are found from the top, since only a
statement of a scope can introduce another one.
-/

/-- What kind of statement list a scope is. -/
inductive ScopeKind where
  | topLevel
  /-- The body of a callback that runs when the page is ready. -/
  | ready
  deriving Repr, DecidableEq

/-- A list of statements whose declarations belong to the component. -/
structure Scope where
  body : Place
  kind : ScopeKind

/-- The event that a listener for the page waits for means that the page is ready. -/
def isReadyEvent (object : PageObject) (method : String) (event : Option String) (count : Nat) :
    Bool :=
  match object, method with
  | .document, "ready" => true
  | .window, "load" => count == 1
  | .window, "on" | .window, "bind" => event == some "load"
  | .document, "on" | .document, "bind" => event == some "ready"
  | _, _ => false

/-- The callback of a method call that waits for the page, given the object of the method. -/
def readyMethodCallback? (object : Place) (method : String) (arguments : List Place) :
    Option Place := do
  let callback ← arguments.getLast?
  guard callback.kind.isFunctionLike
  let event := ((arguments.head?).filter (·.kind == .string)).map fun place =>
    Text.unquote place.text
  if object.kind == .identifier && method == "addEventListener" then
    guard ((object.text == "document" && event == some "DOMContentLoaded") ||
      (object.text == "window" && event == some "load"))
    return callback
  else
    match directTarget? object with
    | some (.page page) =>
        guard (isReadyEvent page method event arguments.length)
        return callback
    | _ => none

/-- The callback of an expression that waits for the page to be ready. -/
def readyCallback? (place : Place) : Option Place :=
  if place.kind != .callExpression then
    none
  else
    match selectArguments? place with
    | some arguments => arguments.head?.filter (·.kind.isFunctionLike)
    | none => do
        let function ← place.child? .function
        guard (function.kind == .memberExpression)
        let object ← function.child? .object
        let property ← function.child? .property
        readyMethodCallback? object property.text (callArguments place)

/-- A place without the parentheses around it. -/
def withoutParentheses : Nat → Place → Option Place
  | 0, place => some place
  | fuel + 1, place =>
      if place.kind == .parenthesizedExpression then
        place.namedChildren.head?.bind (withoutParentheses fuel)
      else
        some place

/-- The body of a function that is a block. -/
def blockBody? (function : Place) : Option Place :=
  (function.child? .body).filter (·.kind == .statementBlock)

/-- The body of a function that is called where it is written. -/
def wrapperBody? (place : Place) : Option Place := do
  guard (place.kind == .callExpression)
  let function ← place.child? .function
  let callee ← withoutParentheses function.node.size function
  guard callee.kind.isFunctionLike
  blockBody? callee

/-- A statement that introduces a scope, or would if its callback had a block for a body. -/
def introducesScope (statement : Place) : Bool :=
  match statementExpression? statement with
  | some expression => (readyCallback? expression).isSome || (wrapperBody? expression).isSome
  | none => false

/-- The scope that a statement introduces. -/
def scopeOf? (statement : Place) : Option Scope := do
  let expression ← statementExpression? statement
  match readyCallback? expression with
  | some callback => (blockBody? callback).map (⟨·, .ready⟩)
  | none => (wrapperBody? expression).map (⟨·, .topLevel⟩)

/-- A scope and the scopes inside it, each before those that its statements introduce. -/
def scopesFrom : Nat → Scope → List Scope
  | 0, scope => [scope]
  | fuel + 1, scope =>
      scope :: ((statementsOf scope.body).filterMap scopeOf?).flatMap (scopesFrom fuel)

/-- All scopes of a script. -/
def scopesOf (root : Node) : List Scope :=
  scopesFrom root.size ⟨Place.ofRoot root, .topLevel⟩

end Hookify
