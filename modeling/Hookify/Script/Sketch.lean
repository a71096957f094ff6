import Hookify.Script.Lexeme
import Hookify.Script.Tree

namespace Hookify
namespace Script

/-!
# Sketches of syntax nodes

While a script is read, its nodes are kept as sketches: a kind and the span of
characters that the node covers.  Space and comments are left out.  When the
reading is done, `Sketch.toNode` fills the gaps between the children from the
source.  A comment becomes a child of the innermost node that holds the lexemes
on both of its sides.
-/

/-- A node that knows its span in place of its text. -/
structure Sketch where
  kind : Kind
  field : Option Field
  start : Nat
  stop : Nat
  children : List Sketch
  deriving Inhabited

namespace Sketch

/-- The same node in a certain part of its parent. -/
def as (sketch : Sketch) (field : Field) : Sketch :=
  { sketch with field := some field }

end Sketch

mutual

/-- Read an expression as what is assigned to: literals become patterns. -/
def Sketch.toPattern : Sketch → Sketch
  | ⟨kind, field, start, stop, children⟩ =>
      match kind with
      | .object => ⟨.objectPattern, field, start, stop, patternsOf children⟩
      | .array => ⟨.arrayPattern, field, start, stop, patternsOf children⟩
      | .pair => ⟨.pairPattern, field, start, stop, patternsOf children⟩
      | .spreadElement => ⟨.restPattern, field, start, stop, patternsOf children⟩
      | .assignmentExpression => ⟨.assignmentPattern, field, start, stop, children⟩
      | .shorthandPropertyIdentifier =>
          ⟨.shorthandPropertyIdentifierPattern, field, start, stop, children⟩
      | _ => ⟨kind, field, start, stop, children⟩

/-- Read a list of expressions as what is assigned to. -/
def patternsOf : List Sketch → List Sketch
  | [] => []
  | sketch :: rest => sketch.toPattern :: patternsOf rest

end

/-- What the finished tree takes from the script beside the sketches. -/
structure Source where
  chars : List Char
  /-- The starts of the lines with their margins, the last line first. -/
  margins : List (Nat × Margin)
  remarks : List Remark

/-- The lines of a script, the last one first; `lines` are those before `position`. -/
def marginsFrom (lines : List (Nat × Margin)) (position : Nat) : List Char → List (Nat × Margin)
  | [] => lines
  | c :: rest =>
      if c == '\n' then
        marginsFrom ((position + 1, Margin.at [] rest) :: lines) (position + 1) rest
      else
        marginsFrom lines (position + 1) rest

namespace Source

/-- The source of a script with the comments that were found in it. -/
def ofChars (chars : List Char) (remarks : List Remark) : Source where
  chars := chars
  margins := marginsFrom [(0, Margin.at [] chars)] 0 chars
  remarks := remarks

/-- The margin of the line that holds a position. -/
def marginAt (source : Source) (position : Nat) : Margin :=
  match source.margins.find? (·.1 ≤ position) with
  | some (_, margin) => margin
  | none => .none

/-- The text between two positions. -/
def slice (source : Source) (start stop : Nat) : String :=
  String.ofList ((source.chars.drop start).take (stop - start))

/-- Source text as a part of a node; nothing if there is none. -/
def textParts (source : Source) (start stop : Nat) : List (NodePart Node) :=
  if start < stop then [.text (source.slice start stop)] else []

/-- A comment as a node. -/
def commentNode (source : Source) (remark : Remark) : Node where
  kind := if remark.isHtml then .htmlComment else .comment
  field := none
  margin := source.marginAt remark.start
  parts := source.textParts remark.start remark.stop

/-- The text between two positions with the given comments as nodes. -/
def partsAround (source : Source) (start stop : Nat) : List Remark → List (NodePart Node)
  | [] => source.textParts start stop
  | remark :: rest =>
      source.textParts start remark.start ++ .child (source.commentNode remark) ::
        source.partsAround remark.stop stop rest

/-- What lies between two children, or between a child and an end of its parent. -/
def gapParts (source : Source) (start stop : Nat) : List (NodePart Node) :=
  source.partsAround start stop
    (source.remarks.filter fun remark => start ≤ remark.start && remark.stop ≤ stop)

end Source

mutual

/-- The finished node of a sketch. -/
def Sketch.toNode (source : Source) : Sketch → Node
  | ⟨kind, field, start, stop, children⟩ =>
      ⟨kind, field, source.marginAt start, partsOf source start stop children⟩

/-- The parts of a node from a position on, with the children that are left. -/
def partsOf (source : Source) (position stop : Nat) : List Sketch → List (NodePart Node)
  | [] => source.gapParts position stop
  | child :: rest =>
      source.gapParts position child.start ++ .child (child.toNode source) ::
        partsOf source child.stop stop rest

end

end Script
end Hookify
