import Hookify.Script.Kind
import Hookify.Text.Lines

namespace Hookify
namespace Script

/-!
# The syntax tree of a script

A tree holds the whole text of its script.  The parts of a node alternate
between source text that belongs to the node itself, which includes tokens,
blanks and line ends, and children; the text of a node is the text of its
parts in order.  So children never overlap, they lie inside their parent, and
replacing some nodes by other text leaves everything else in place.

A node also knows the margin of the line on which it starts, because a
fragment that is cut out of a script or put into it has to be shifted by that
margin.
-/

/-- The indentation of a line of a script. -/
structure Margin where
  chars : List Char
  all_margin : chars.all Text.isMargin = true

/-- No indentation. -/
def Margin.none : Margin := ⟨[], rfl⟩

/-- The margin of the line on which a text would go on after `before`. -/
def Margin.at (before after : List Char) : Margin where
  chars := Text.marginAt before after
  all_margin := by simp [Text.marginAt]

/-- A part of a node: text of its own or a child. -/
inductive NodePart (Child : Type) where
  | text (source : String)
  | child (node : Child)

/-- A node of the syntax tree. -/
structure Node where
  kind : Kind
  /-- The part that the node plays in its parent, if that part has a name. -/
  field : Option Field
  /-- The indentation of the line on which the node starts. -/
  margin : Margin
  parts : List (NodePart Node)

instance : Inhabited Node := ⟨⟨.program, none, .none, []⟩⟩

mutual

/-- The source text of a node, from its first to its last token. -/
def Node.text : Node → String
  | ⟨_, _, _, parts⟩ => textOfParts parts

/-- The source text of a list of parts. -/
def textOfParts : List (NodePart Node) → String
  | [] => ""
  | .text source :: rest => source ++ textOfParts rest
  | .child node :: rest => node.text ++ textOfParts rest

end

namespace Node

/-- The children of a node, tokens and comments included. -/
def children (node : Node) : List Node :=
  node.parts.filterMap fun
    | .text _ => none
    | .child child => some child

end Node

mutual

/-- How many nodes a tree has. -/
def Node.size : Node → Nat
  | ⟨_, _, _, parts⟩ => sizeOfParts parts + 1

/-- How many nodes a list of parts has. -/
def sizeOfParts : List (NodePart Node) → Nat
  | [] => 0
  | .text _ :: rest => sizeOfParts rest
  | .child node :: rest => node.size + sizeOfParts rest

end

/-! ## Places -/

/-- A node together with the nodes around it, the nearest first.  The path tells for each of them,
the node itself first, which child of its parent it is, so that two places of a tree are the same
if and only if their paths are. -/
structure Place where
  node : Node
  ancestors : List Node
  path : List Nat

namespace Place

/-- The place of the root of a tree. -/
def ofRoot (root : Node) : Place := ⟨root, [], []⟩

/-- The kind of the node at a place. -/
def kind (place : Place) : Kind := place.node.kind

/-- The source text of the node at a place. -/
def text (place : Place) : String := place.node.text

/-- The part that the node plays in its parent. -/
def field (place : Place) : Option Field := place.node.field

/-- The place of the parent. -/
def parent? (place : Place) : Option Place :=
  match place.ancestors with
  | [] => none
  | parent :: others => some ⟨parent, others, place.path.tail⟩

/-- The places of the children. -/
def children (place : Place) : List Place :=
  place.node.children.zipIdx.map fun (child, index) =>
    ⟨child, place.node :: place.ancestors, index :: place.path⟩

/-- The places of the children that are more than a token. -/
def namedChildren (place : Place) : List Place :=
  place.children.filter (·.kind.isNamed)

/-- The places of the named children that are no comments. -/
def contents (place : Place) : List Place :=
  place.namedChildren.filter (·.kind != .comment)

/-- The place of the first child that plays a given part. -/
def child? (place : Place) (field : Field) : Option Place :=
  place.children.find? (·.field == some field)

end Place

mutual

/-- The places of a tree, each node before its children. -/
def Node.places (ancestors : List Node) (path : List Nat) : Node → List Place
  | ⟨kind, field, margin, parts⟩ =>
      let node : Node := ⟨kind, field, margin, parts⟩
      ⟨node, ancestors, path⟩ :: placesOfParts (node :: ancestors) path 0 parts

/-- The places of a list of parts, the first child of which has the given number. -/
def placesOfParts (ancestors : List Node) (path : List Nat) (index : Nat) :
    List (NodePart Node) → List Place
  | [] => []
  | .text _ :: rest => placesOfParts ancestors path index rest
  | .child node :: rest =>
      node.places ancestors (index :: path) ++ placesOfParts ancestors path (index + 1) rest

end

/-- The places at and below a place, in the order in which the source has them. -/
def Place.walk (place : Place) : List Place :=
  place.node.places place.ancestors place.path

end Script
end Hookify
