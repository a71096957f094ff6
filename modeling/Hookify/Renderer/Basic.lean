import Hookify.Facts.Basic

namespace Hookify

open Script

/-!
# Rendering parts of a script

A renderer renders parts of a script with the recognised idioms replaced.  The
rules for single idioms are written for a given renderer, which renders the
parts inside; `Renderer.of` in the module on replacing ties them together.
-/

/-- How the parts of a script are rendered. -/
structure Renderer where
  facts : Facts
  /-- What stands for `this`, if it is to be replaced. -/
  this : Option String
  /-- The text of a place with its idioms replaced. -/
  render : Place → String

namespace Renderer

/-- A place cut out of its surroundings: its other lines lose the margin of the first. -/
def fragment (renderer : Renderer) (place : Place) : String :=
  Text.dedentContinuation place.node.margin.chars.length (renderer.render place)

/-- The statements of a function. The body of an arrow function that is an expression becomes the
statement that returns it. -/
def functionBody (renderer : Renderer) (function : Place) : String :=
  match function.child? .body with
  | some body =>
      if body.kind == .statementBlock then Text.blockInner (renderer.render body)
      else "return " ++ renderer.fragment body ++ ";"
  | none => ""

end Renderer
end Hookify
