import Hookify.Script.Semicolon
import Hookify.Script.Sketch

namespace Hookify
namespace Script

/-!
# Reading a script

The cursor stands on a lexeme and knows the text around it.  A reader moves the
cursor over what it recognises, or gives up at the first lexeme that does not
fit; the cursor then stays there, so that the caller can see how far it came.

Templates and markup are read character by character.  There the cursor stands
behind the last character taken, and `resume` goes back to lexemes.
-/

/-- A place in a script. -/
structure Cursor where
  lexeme : Lexeme
  start : Nat
  stop : Nat
  /-- A line end stands between the lexeme and the one before. -/
  newline : Bool
  /-- The text from the lexeme on. -/
  here : List Char
  /-- The text behind the lexeme. -/
  rest : List Char
  /-- The end of what was taken last. -/
  last : Nat
  /-- The text behind what was taken last. -/
  behind : List Char
  /-- The comments passed so far, the latest first. -/
  remarks : List Remark
  /-- The word `in` is an operator here; in the head of a loop it is not. -/
  allowIn : Bool
  /-- The nodes that have been read and are part of no other yet, the latest first. -/
  nodes : List Sketch
  /-- The end of the script has stood for a brace that is missing. -/
  lacksBrace : Bool
  deriving Inhabited

/-- A reader of a part of a script. -/
abbrev Reader := EStateM Unit Cursor

namespace Cursor

/-- Find the next lexeme behind what was taken last. -/
def resume (cursor : Cursor) : Cursor :=
  let gap := passGap .space cursor.remarks false cursor.last cursor.behind
  let (lexeme, length) := readLexeme gap.rest
  { cursor with
    lexeme := lexeme
    start := gap.stop
    stop := gap.stop + length
    newline := gap.hasNewline
    here := gap.rest
    rest := gap.rest.drop length
    remarks := gap.remarks }

/-- Take so many characters behind what was taken last. -/
def take (cursor : Cursor) (length : Nat) : Cursor :=
  { cursor with last := cursor.last + length, behind := cursor.behind.drop length }

/-- Take the text up to the end of the first `length` characters of the lexeme. -/
def takeHere (cursor : Cursor) (length : Nat) : Cursor :=
  { cursor with last := cursor.start + length, behind := cursor.here.drop length }

/-- Take the lexeme and go on to the next. -/
def advance (cursor : Cursor) : Cursor :=
  ({ cursor with last := cursor.stop, behind := cursor.rest }).resume

/-- The cursor before the first lexeme of a script. -/
def ofChars (chars : List Char) : Cursor where
  lexeme := .finish
  start := 0
  stop := 0
  newline := false
  here := chars
  rest := chars
  last := 0
  behind := chars
  remarks := []
  allowIn := true
  nodes := []
  lacksBrace := false

/-- The cursor with one node more. The nodes that it covers are its parts. -/
def withNode (cursor : Cursor) (node : Sketch) : Cursor :=
  { cursor with nodes := node :: cursor.nodes.dropWhile (node.start ≤ ·.start) }

/-- The lexeme is a certain sign. -/
def isSign (cursor : Cursor) (text : String) : Bool :=
  match cursor.lexeme with
  | .sign chars => chars == text.toList
  | _ => false

/-- The lexeme is a certain word. -/
def isWord (cursor : Cursor) (text : String) : Bool :=
  match cursor.lexeme with
  | .word letters => letters == text.toList
  | _ => false

/-- Words that cannot name a variable. -/
def reservedWords : List (List Char) :=
  [ "break".toList, "case".toList, "catch".toList, "class".toList, "const".toList,
    "continue".toList, "debugger".toList, "default".toList, "delete".toList, "do".toList,
    "else".toList, "enum".toList, "export".toList, "extends".toList, "false".toList,
    "finally".toList, "for".toList, "function".toList, "if".toList, "import".toList,
    "in".toList, "instanceof".toList, "new".toList, "null".toList, "return".toList,
    "super".toList, "switch".toList, "this".toList, "throw".toList, "true".toList,
    "try".toList, "typeof".toList, "var".toList, "void".toList, "while".toList, "with".toList ]

/-- The lexeme is a word that can name a variable. -/
def isName (cursor : Cursor) : Bool :=
  match cursor.lexeme with
  | .word letters => ! reservedWords.contains letters
  | _ => false

/-- The lexeme is any word. -/
def isAnyWord (cursor : Cursor) : Bool :=
  match cursor.lexeme with
  | .word _ => true
  | _ => false

end Cursor

/-! ## Small readers -/

namespace Reader

/-- Give up. -/
def fail {Result : Type} : Reader Result := throw ()

/-- The lexeme is a certain sign. -/
def atSign (text : String) : Reader Bool := return (← get).isSign text

/-- The lexeme is a certain word. -/
def atWord (text : String) : Reader Bool := return (← get).isWord text

/-- The lexeme behind the present one, as a cursor. -/
def following : Reader Cursor := return (← get).advance

/-- Take the lexeme. -/
def advance : Reader Unit := modify Cursor.advance

/-- Go on to the next lexeme after characters were taken. -/
def resume : Reader Unit := modify Cursor.resume

/-- Take a certain sign. -/
def sign (text : String) : Reader Unit := do
  if ← atSign text then advance else fail

/-- Take a certain word. -/
def word (text : String) : Reader Unit := do
  if ← atWord text then advance else fail

/-- Take a certain sign if it is there. -/
def optionalSign (text : String) : Reader Bool := do
  if ← atSign text then
    advance
    return true
  else
    return false

/-- Note that a node has been read. -/
def noted (node : Sketch) : Reader Sketch := do
  modify (·.withNode node)
  return node

/-- Take the lexeme as a node. -/
def leaf (kind : Kind) : Reader Sketch := do
  let cursor ← get
  advance
  noted ⟨kind, none, cursor.start, cursor.stop, []⟩

/-- Take so many characters of the text at the lexeme as a node. -/
def leafHere (kind : Kind) (length : Nat) : Reader Sketch := do
  let cursor ← get
  set (cursor.takeHere length).resume
  noted ⟨kind, none, cursor.start, cursor.start + length, []⟩

/-- Take so many characters as a node, without looking for the next lexeme. -/
def leafRaw (kind : Kind) (length : Nat) : Reader Sketch := do
  let cursor ← get
  set (cursor.take length)
  noted ⟨kind, none, cursor.last, cursor.last + length, []⟩

/-- A node from a position up to what was taken last. -/
def finish (kind : Kind) (start : Nat) (children : List Sketch) : Reader Sketch := do
  noted ⟨kind, none, start, (← get).last, children⟩

/-- A name. The word `undefined` has a kind of its own. -/
def name : Reader Sketch := do
  let cursor ← get
  if cursor.isName then
    leaf (if cursor.isWord "undefined" then .undefinedName else .identifier)
  else
    fail

/-- Any word, in a part where words are not reserved. -/
def anyWord (kind : Kind) : Reader Sketch := do
  if (← get).isAnyWord then leaf kind else fail

/-- Read a part in which `in` is an operator, or is not, and then as before. -/
def withIn {Result : Type} (allowed : Bool) (reader : Reader Result) : Reader Result := do
  let before := (← get).allowIn
  modify ({ · with allowIn := allowed })
  let result ← reader
  modify ({ · with allowIn := before })
  return result

/-- Take the semicolon of no width if one may stand here, with the comments before it. -/
def automaticSemicolon (afterExpression : Bool) : Reader Bool := do
  let cursor ← get
  match semicolonOffset? afterExpression (cursor.behind.length + 1) cursor.behind with
  | none => return false
  | some 0 => return true
  | some offset =>
      set (cursor.take offset)
      return true

/-- The end of a statement. -/
def semicolon (afterExpression : Bool) : Reader Unit := do
  if ← atSign ";" then advance
  else if ← automaticSemicolon afterExpression then return
  else fail

/-- Read items until one is not there, at most so many. -/
def many {Item : Type} (item : Reader (Option Item)) : Nat → Reader (List Item)
  | 0 => return []
  | budget + 1 => do
      match ← item with
      | none => return []
      | some first => return first :: (← many item budget)

end Reader

end Script
end Hookify
