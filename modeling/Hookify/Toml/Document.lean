import Hookify.Toml.Quoted

namespace Hookify
namespace Toml

/-!
# Documents

A document is a list of statements, one a line: headers, which say where the
entries after them belong, and entries.  Reading refuses a document that is not
well formed; what is wrong with it is not told.
-/

/-- What a line of a document says. -/
inductive Statement where
  | header (path : List String) (key : String)
  | element (path : List String) (key : String)
  | entry (path : List String) (key : String) (value : Value)
  deriving Repr

/-! ## Blanks -/

/-- What follows spaces, line ends and comments. -/
def afterBlanks? (inComment : Bool) : List Char → Option (List Char)
  | [] => some []
  | c :: rest =>
      if c == '\n' then afterBlanks? false rest
      else if c == '\r' then
        if rest.head? == some '\n' then afterBlanks? inComment rest else none
      else if inComment then
        if isPlain c then afterBlanks? true rest else none
      else if isSpace c then afterBlanks? false rest
      else if c == '#' then afterBlanks? true rest
      else some (c :: rest)

/-- What follows the end of a line, on which nothing but a comment may stand. -/
def afterLine? (inComment : Bool) : List Char → Option (List Char)
  | [] => some []
  | c :: rest =>
      if c == '\n' then some rest
      else if c == '\r' then
        if rest.head? == some '\n' then afterLine? inComment rest else none
      else if inComment then
        if isPlain c then afterLine? true rest else none
      else if isSpace c then afterLine? false rest
      else if c == '#' then afterLine? true rest
      else none

/-- What follows spaces and tabs. -/
def afterSpaces (chars : List Char) : List Char :=
  chars.dropWhile isSpace

/-! ## Keys -/

/-- A character of a key without quotes. -/
def isKeyChar (c : Char) : Bool :=
  Text.isAsciiAlphanumeric c || c == '_' || c == '-'

/-- One key. -/
def key? : Reader String
  | '\x22' :: rest => (basic? rest).map fun (text, behind) => (String.ofList text, behind)
  | '\x27' :: rest => (literal? rest).map fun (text, behind) => (String.ofList text, behind)
  | chars =>
      let text := chars.takeWhile isKeyChar
      if text.isEmpty then none else some (String.ofList text, chars.drop text.length)

/-- Keys with dots between them: all but the last, and the last; `fuel` bounds their number. -/
def keysFrom : Nat → Reader (List String × String)
  | 0, _ => none
  | fuel + 1, chars =>
      match key? chars with
      | none => none
      | some (key, behind) =>
          match afterSpaces behind with
          | '.' :: rest =>
              (keysFrom fuel (afterSpaces rest)).map fun ((path, last), behind) =>
                ((key :: path, last), behind)
          | rest => some (([], key), rest)

/-- Keys with dots between them, and what follows them and the blanks behind them. -/
def keys? : Reader (List String × String) := fun chars =>
  keysFrom (chars.length + 1) chars

/-! ## Values -/

/-- A character of a value without quotes or brackets. -/
def isScalarChar (c : Char) : Bool :=
  ! isSpace c && ! "\n\r,#=[]\x7b\x7d\x22\x27".toList.contains c

/-- The characters of a value without quotes or brackets.  A single space may stand between a day
and a time. -/
def scalarChars (chars : List Char) : List Char × List Char :=
  let first := chars.takeWhile isScalarChar
  let behind := chars.drop first.length
  match behind with
  | ' ' :: c :: rest =>
      if afterDay? first == some [] && Text.isAsciiDigit c then
        let second := (c :: rest).takeWhile isScalarChar
        (first ++ ' ' :: second, (c :: rest).drop second.length)
      else (first, behind)
  | _ => (first, behind)

/-- The values of an array, read behind the opening bracket.  A comma may stand behind the last
one. -/
def elementsFrom (value? : Reader Value) : Nat → Reader (List Value)
  | 0, _ => none
  | fuel + 1, chars => do
      match <- afterBlanks? false chars with
      | ']' :: rest => some ([], rest)
      | here =>
          let (value, behind) <- value? here
          match <- afterBlanks? false behind with
          | ',' :: rest =>
              (elementsFrom value? fuel rest).map fun (values, behind) => (value :: values, behind)
          | ']' :: rest => some ([value], rest)
          | _ => none

/-- An entry: keys, the sign of equality, and a value. -/
def entry? (value? : Reader Value) : Reader ((List String × String) × Value) := fun chars => do
  let (keys, behind) <- keys? chars
  match behind with
  | '=' :: rest =>
      let (value, behind) <- value? (afterSpaces rest)
      some ((keys, value), behind)
  | _ => none

/-- The entries of a table, read behind the opening brace and added to those before. -/
def fieldsFrom (value? : Reader Value) : Nat → Fields → Reader Fields
  | 0, _, _ => none
  | fuel + 1, fields, chars => do
      match <- afterBlanks? false chars with
      | '\x7d' :: rest => some (fields, rest)
      | here =>
          let (((path, key), value), behind) <- entry? value? here
          let fields <- insertDotted? path key value fields
          match <- afterBlanks? false behind with
          | ',' :: rest => fieldsFrom value? fuel fields rest
          | '\x7d' :: rest => some (fields, rest)
          | _ => none

/-- A text as a value. -/
def textValue (read : List Char × List Char) : Value × List Char :=
  (.text (String.ofList read.1), read.2)

/-- A value, in which brackets are nested to a limited depth. -/
def valueFrom : Nat → Reader Value
  | 0, _ => none
  | depth + 1, chars =>
      match chars with
      | '\x22' :: '\x22' :: '\x22' :: rest => (triple? '\x22' rest).map textValue
      | '\x22' :: rest => (basic? rest).map textValue
      | '\x27' :: '\x27' :: '\x27' :: rest => (triple? '\x27' rest).map textValue
      | '\x27' :: rest => (literal? rest).map textValue
      | '[' :: rest =>
          (elementsFrom (valueFrom depth) (rest.length + 1) rest).map fun (values, behind) =>
            (.array values, behind)
      | '\x7b' :: rest =>
          (fieldsFrom (valueFrom depth) (rest.length + 1) [] rest).map fun (fields, behind) =>
            (.table .braces fields, behind)
      | _ =>
          let (scalar, behind) := scalarChars chars
          (scalar? scalar).map fun value => (value, behind)

/-- How deep brackets may be nested. -/
def depthLimit : Nat := 80

/-- A value. -/
def value? : Reader Value :=
  valueFrom (depthLimit + 1)

/-! ## Statements -/

/-- One statement. -/
def statement? : Reader Statement
  | '[' :: '[' :: rest => do
      let ((path, key), behind) <- keys? (afterSpaces rest)
      match behind with
      | ']' :: ']' :: behind => some (.element path key, behind)
      | _ => none
  | '[' :: rest => do
      let ((path, key), behind) <- keys? (afterSpaces rest)
      match behind with
      | ']' :: behind => some (.header path key, behind)
      | _ => none
  | chars => do
      let (((path, key), value), behind) <- entry? value? chars
      some (.entry path key value, behind)

/-- The statements of a document; `fuel` bounds their number. -/
def statementsFrom : Nat → List Char → Option (List Statement)
  | 0, _ => none
  | fuel + 1, chars => do
      match <- afterBlanks? false chars with
      | [] => some []
      | here =>
          let (statement, behind) <- statement? here
          let rest <- afterLine? false behind
          (statementsFrom fuel rest).map (statement :: ·)

/-- The tables read so far, and the path to the one that entries belong to. -/
structure Reading where
  fields : Fields
  current : List String

/-- Add what a statement says. -/
def Reading.add? (reading : Reading) : Statement → Option Reading
  | .header path key =>
      (openTable? path key reading.fields).map fun fields => ⟨fields, path ++ [key]⟩
  | .element path key =>
      (openElement? path key reading.fields).map fun fields => ⟨fields, path ++ [key]⟩
  | .entry path key value =>
      (within? false (fun _ => insertDotted? path key value) reading.current .header
        reading.fields).map fun fields => { reading with fields := fields }

/-- The table that a document describes. -/
def read? (document : String) : Option Fields := do
  let chars :=
    match document.toList with
    | '\ufeff' :: rest => rest
    | chars => chars
  let statements <- statementsFrom (chars.length + 1) chars
  let reading <- statements.foldlM Reading.add? ⟨[], []⟩
  some reading.fields

end Toml
end Hookify
