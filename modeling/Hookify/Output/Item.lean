import Hookify.Text.Lines

namespace Hookify
namespace Output

/-!
# Items of a generated file

A file is first put together from items, none of which knows how deep it will
be nested, and only then laid out as text.
-/

/-- A piece of a generated file. -/
inductive Item where
  /-- One line at the current depth. -/
  | line (text : String)
  /-- An empty line. -/
  | blank
  /-- A remark; each line of the text gets a marker of its own. -/
  | comment (text : String)
  /-- Code of any number of lines, with whatever indentation it has. -/
  | code (text : String)
  /-- An opening line, a body one level deeper, and a closing line. -/
  | block (opening : String) (body : List Item) (closing : String)
  /-- A documentation comment of the given lines. -/
  | doc (lines : List String)
  deriving Repr, Inhabited

/-- The items of the groups that are not empty, with a blank line between the groups. -/
def separated : List (List Item) → List Item
  | [] => []
  | group :: rest =>
      match group, separated rest with
      | [], others => others
      | items, [] => items
      | items, others => items ++ .blank :: others

/-!
## The layout of items

Each item becomes a list of rows, indented by two spaces for each block around
it.  Code loses the indentation that it came with before it gets the one of
its place.  An empty line inside code is left without indentation, and so is a
blank item; a line item is indented in any case.
-/

/-- Two spaces for each level of depth. -/
def margin (depth : Nat) : String :=
  String.ofList (List.replicate (2 * depth) ' ')

/-- A text at its depth. -/
def row (depth : Nat) (text : String) : String :=
  margin depth ++ text

/-- A line of a remark behind its marker. -/
def commentLine (line : String) : String :=
  if Text.isBlankText line then "//" else "// " ++ line

/-- A line of a documentation comment. The end mark of the comment cannot occur in it. -/
def docLine (line : String) : String :=
  if line.isEmpty then " *" else " * " ++ Text.replace "*/" "* /" line

/-- The lines of code without the indentation they have in common. -/
def codeLines (text : String) : List String :=
  Text.lines (Text.dedent (Text.tidy text))

mutual

/-- The rows of an item. -/
def Item.rows (depth : Nat) : Item → List String
  | .line text => [row depth text]
  | .blank => [""]
  | .comment text => (Text.lines text).map fun line => row depth (commentLine line)
  | .code text => (codeLines text).map fun line => if line.isEmpty then "" else row depth line
  | .block opening body closing =>
      row depth opening :: (rowsOf (depth + 1) body ++ [row depth closing])
  | .doc lines =>
      row depth "/**" :: (lines.map (fun line => row depth (docLine line)) ++ [row depth " */"])

/-- The rows of items one after another. -/
def rowsOf (depth : Nat) : List Item → List String
  | [] => []
  | item :: rest => item.rows depth ++ rowsOf depth rest

end

/-- The text of items, each row with its line end. -/
def print (items : List Item) : String :=
  String.join ((rowsOf 0 items).map (· ++ "\n"))

end Output
end Hookify
