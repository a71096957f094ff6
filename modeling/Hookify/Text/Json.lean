import Hookify.Text.Blank

namespace Hookify
namespace Text

/-!
# JSON text

Values are written with one entry a line, indented by two spaces for each
level, and the entries of a record stay in their order.  A text is enclosed in
double quotes; a character that may not stand there as it is has an escape
sequence.
-/

/-- A value to be written. -/
inductive JsonValue where
  | text (text : String)
  | number (number : Nat)
  | list (values : List JsonValue)
  | record (fields : List (String × JsonValue))
  deriving Repr, Inhabited

/-- A digit of base sixteen. -/
def hexDigit (digit : Nat) : Char :=
  if digit < 10 then Char.ofNat ('0'.toNat + digit) else Char.ofNat ('a'.toNat + digit - 10)

/-- A character inside quotes. -/
def jsonChar (c : Char) : List Char :=
  if c == '\x22' then ['\\', '\x22']
  else if c == '\\' then ['\\', '\\']
  else if c == '\n' then ['\\', 'n']
  else if c == '\r' then ['\\', 'r']
  else if c == '\t' then ['\\', 't']
  else if c == '\x08' then ['\\', 'b']
  else if c == '\x0c' then ['\\', 'f']
  else if c.toNat < 0x20 then
    ['\\', 'u', '0', '0', hexDigit (c.toNat / 16), hexDigit (c.toNat % 16)]
  else [c]

/-- A text in quotes. -/
def jsonText (text : String) : String :=
  overChars (fun chars => '\x22' :: (chars.flatMap jsonChar ++ ['\x22'])) text

/-- Entries between brackets, one a line. -/
def jsonBlock (depth : Nat) (opening closing : String) (entries : List String) : String :=
  if entries.isEmpty then opening ++ closing
  else
    let margin := fun depth => String.ofList (List.replicate (2 * depth) ' ')
    let rows := entries.map (margin (depth + 1) ++ ·)
    opening ++ "\n" ++ String.intercalate ",\n" rows ++ "\n" ++ margin depth ++ closing

mutual

/-- A value at a depth, without the indentation of its first line. -/
def JsonValue.write (depth : Nat) : JsonValue → String
  | .text text => jsonText text
  | .number number => toString number
  | .list values => jsonBlock depth "[" "]" (writeValues (depth + 1) values)
  | .record fields => jsonBlock depth "\x7b" "\x7d" (writeFields (depth + 1) fields)

/-- The values of a list. -/
def writeValues (depth : Nat) : List JsonValue → List String
  | [] => []
  | value :: rest => value.write depth :: writeValues depth rest

/-- The entries of a record. -/
def writeFields (depth : Nat) : List (String × JsonValue) → List String
  | [] => []
  | (name, value) :: rest =>
      (jsonText name ++ ": " ++ value.write depth) :: writeFields depth rest

end

/-- The text of a value. -/
def JsonValue.render (value : JsonValue) : String :=
  value.write 0

end Text
end Hookify
