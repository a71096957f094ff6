import Hookify.Component.Basic
import Hookify.Script.Tree
import Hookify.Text.Quoted

namespace Hookify
namespace Selection

open Script

/-!
# Selections

A script selects elements by a call of `$` or `jQuery`.  The target of such a
call is what stands in its first argument: a selector, the document or the
window, or `this`.  A text that begins with `<` creates markup and selects
nothing.
-/

/-- What a call selects. -/
inductive Target where
  | selector (text : String)
  | page (object : PageObject)
  | this
  deriving Repr, DecidableEq

/-- A target as the report names it. -/
def Target.label : Target → String
  | .selector text => text
  | .page object => object.name
  | .this => "$(this)"

/-- The names under which scripts know the selecting function. -/
def isSelectName (name : String) : Bool :=
  name == "$" || name == "jQuery"

/-- The arguments of a call, comments aside. -/
def callArguments (call : Place) : List Place :=
  match call.child? .arguments with
  | some arguments => arguments.contents
  | none => []

/-- The arguments of a call of the selecting function. -/
def selectArguments? (place : Place) : Option (List Place) := do
  guard (place.kind == .callExpression)
  let function ← place.child? .function
  guard (function.kind == .identifier && isSelectName function.text)
  return callArguments place

/-- The target that a literal stands for. -/
def literalTarget? (literal : String) : Option Target :=
  let selector := Text.trim (Text.unquote literal)
  if selector.isEmpty || Text.startsWith "<" selector then none else some (.selector selector)

/-- The target of a first argument. A template counts as a literal only if it is empty inside. -/
def argumentTarget? (argument : Place) : Option Target :=
  match argument.kind with
  | .string => literalTarget? argument.text
  | .templateString =>
      if argument.namedChildren.isEmpty then literalTarget? argument.text else none
  | .identifier =>
      match argument.text with
      | "document" => some (.page .document)
      | "window" => some (.page .window)
      | _ => none
  | .this => some .this
  | _ => none

/-- The target of a call of the selecting function. -/
def directTarget? (place : Place) : Option Target := do
  let arguments ← selectArguments? place
  let first ← arguments.head?
  argumentTarget? first

end Selection
end Hookify
