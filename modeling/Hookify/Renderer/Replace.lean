import Hookify.Renderer.Idiom

namespace Hookify

open Script

/-!
# Replacing idioms

Rendering copies a script and puts the replacement of each outermost idiom in
its place.  Comments are left out; everything between the nodes stays.  A
replacement of several lines takes on the margin of the line it stands on.

A function that binds `this` anew ends the replacement of `this`.  Arrow
functions do not.
-/

/-- The parts of a place, with children as places; the first child has the given number. -/
def placeParts (place : Place) (index : Nat) : List (NodePart Node) → List (NodePart Place)
  | [] => []
  | .text source :: rest => .text source :: placeParts place index rest
  | .child node :: rest =>
      .child ⟨node, place.node :: place.ancestors, index :: place.path⟩ ::
        placeParts place (index + 1) rest

namespace Renderer

/-- Parts with their children rendered. -/
def renderParts (render : Place → String) : List (NodePart Place) → String
  | [] => ""
  | .text source :: rest => source ++ renderParts render rest
  | .child place :: rest => render place ++ renderParts render rest

/-- Rendering of a place whose nodes are nested at most so deep. -/
def renderTo (facts : Facts) : Nat → Option String → Place → String
  | 0, _, place => place.text
  | depth + 1, this, place =>
      if place.kind == .comment then
        ""
      else
        match idiom? ⟨facts, this, renderTo facts depth this⟩ place with
        | some text => Text.indentContinuation (String.ofList place.node.margin.chars) text
        | none =>
            let inside := if place.kind.isPlainFunction then none else this
            renderParts (renderTo facts depth inside) (placeParts place 0 place.node.parts)

/-- The renderer of a script, with an expression for `this` if it is to be replaced. -/
def of (facts : Facts) (this : Option String) : Renderer where
  facts := facts
  this := this
  render := renderTo facts (facts.root.node.size + 1) this

end Renderer
end Hookify
