import Hookify.Toml.Value

namespace Hookify
namespace Toml

/-!
# Quoted texts

Texts in double quotes have escape sequences, texts in single quotes have none.
Three quotes enclose a text of several lines.  Each reader starts behind the
opening quotes and gives the text with what follows the closing ones.
-/

/-- A reader takes a value from the front of some characters and gives it with the rest. -/
abbrev Reader (Result : Type) := List Char → Option (Result × List Char)

/-- A character that may stand in a line of text as it is: no control character but the tab. -/
def isPlain (c : Char) : Bool :=
  c == '\t' || (' ' ≤ c && c != '\x7f')

/-- The character with a code, given in so many digits. -/
def coded? (count : Nat) (chars : List Char) : Option (Char × List Char) :=
  let taken := chars.take count
  if taken.length == count then
    match digits? 16 taken with
    | some code => if code.isValidChar then some (Char.ofNat code, chars.drop count) else none
    | none => none
  else none

/-- The character that an escape sequence stands for, read behind the backslash. -/
def escape? : Reader Char
  | 'b' :: rest => some ('\x08', rest)
  | 't' :: rest => some ('\t', rest)
  | 'n' :: rest => some ('\n', rest)
  | 'f' :: rest => some ('\x0c', rest)
  | 'r' :: rest => some ('\r', rest)
  | 'e' :: rest => some ('\x1b', rest)
  | '\x22' :: rest => some ('\x22', rest)
  | '\\' :: rest => some ('\\', rest)
  | 'x' :: rest => coded? 2 rest
  | 'u' :: rest => coded? 4 rest
  | 'U' :: rest => coded? 8 rest
  | _ => none

/-- A character in front of what has been read. -/
def prepend (c : Char) (read : List Char × List Char) : List Char × List Char :=
  (c :: read.1, read.2)

/-- A text in double quotes on one line. `fuel` bounds the number of its characters. -/
def basicFrom : Nat → Reader (List Char)
  | 0, _ => none
  | _ + 1, [] => none
  | fuel + 1, c :: rest =>
      if c == '\x22' then some ([], rest)
      else if c == '\\' then
        match escape? rest with
        | some (escaped, behind) => (basicFrom fuel behind).map (prepend escaped)
        | none => none
      else if isPlain c then (basicFrom fuel rest).map (prepend c)
      else none

/-- A text in single quotes on one line. -/
def literal? : Reader (List Char)
  | [] => none
  | c :: rest =>
      if c == '\x27' then some ([], rest)
      else if isPlain c then (literal? rest).map (prepend c)
      else none

/-- What follows a line end at the front. -/
def afterLineEnd? : List Char → Option (List Char)
  | '\n' :: rest => some rest
  | '\r' :: '\n' :: rest => some rest
  | _ => none

/-- Spaces and tabs. -/
def isSpace (c : Char) : Bool :=
  c == ' ' || c == '\t'

/-- What follows a backslash at the end of a line: the line end goes together with all blanks
behind it. -/
def afterJoin? (chars : List Char) : Option (List Char) :=
  (afterLineEnd? (chars.dropWhile isSpace)).map fun rest =>
    rest.dropWhile fun c => isSpace c || c == '\n' || c == '\r'

/-- The end of a text in triple quotes.  One or two quotes before the closing ones belong to the
text. -/
def closeTriple? (mark : Char) (chars : List Char) : Option (List Char × List Char) :=
  let count := (chars.takeWhile (· == mark)).length
  if 3 ≤ count then
    let inside := min (count - 3) 2
    some (List.replicate inside mark, chars.drop (inside + 3))
  else none

/-- A text in triple quotes. In double quotes it has escape sequences. -/
def tripleFrom (mark : Char) : Nat → Reader (List Char)
  | 0, _ => none
  | _ + 1, [] => none
  | fuel + 1, c :: rest =>
      match closeTriple? mark (c :: rest) with
      | some closed => some closed
      | none =>
          if c == '\\' && mark == '\x22' then
            match afterJoin? rest with
            | some behind => tripleFrom mark fuel behind
            | none =>
                match escape? rest with
                | some (escaped, behind) => (tripleFrom mark fuel behind).map (prepend escaped)
                | none => none
          else if c == '\r' then
            if rest.head? == some '\n' then (tripleFrom mark fuel rest).map (prepend c) else none
          else if isPlain c || c == '\n' then (tripleFrom mark fuel rest).map (prepend c)
          else none

/-- A text in triple quotes. A line end behind the opening quotes does not count. -/
def triple? (mark : Char) : Reader (List Char) := fun chars =>
  tripleFrom mark (chars.length + 1) ((afterLineEnd? chars).getD chars)

/-- A text in double quotes on one line. -/
def basic? : Reader (List Char) := fun chars =>
  basicFrom (chars.length + 1) chars

end Toml
end Hookify
