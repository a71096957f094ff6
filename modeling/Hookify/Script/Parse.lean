import Hookify.Script.Grammar.Statement

namespace Hookify
namespace Script

/-!
# From text to tree

Every text has a syntax tree; what is no script becomes error nodes.  Each
level of nesting takes at least one character, so the length of the text
bounds the depth of the grammar that is needed.
-/

/-- A first line that names the program which runs the script. -/
def hashBang : Reader (List Sketch) := do
  let cursor ← get
  match cursor.behind with
  | '#' :: '!' :: rest =>
      let line ← Reader.leafRaw .hashBangLine ((rest.takeWhile (! isLineEnd ·)).length + 2)
      return [line]
  | _ => return []

/-- The statements of a script. -/
def script (grammar : Grammar) : Reader (List Sketch) := do
  let first ← hashBang
  Reader.resume
  let statements ← grammar.statementsOf false
  return first ++ statements

/-- The syntax tree of a script. -/
def parse (text : String) : Node :=
  let chars := text.toList
  let length := chars.length
  let (statements, remarks) :=
    match script (grammarOf (length + 1) (length + 2)) (Cursor.ofChars chars) with
    | .ok statements cursor => (statements, cursor.remarks.reverse)
    | .error _ cursor => ([], cursor.remarks.reverse)
  Sketch.toNode (Source.ofChars chars remarks) ⟨.program, none, 0, length, statements⟩

end Script
end Hookify
