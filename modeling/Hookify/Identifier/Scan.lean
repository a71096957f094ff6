import Hookify.Text.Blank
import Hookify.Text.Letter

namespace Hookify
namespace Identifier

/-!
# Identifiers that occur in code

A lexical scan, one character at a time, finds the names that a piece of code
refers to.  Quoted literals and comments are passed over, and so are property
names after a dot.  Template literals are read as code, so that a name inside
a substitution counts; the price is that their static text counts as well.
-/

/-- Where the scan stands. -/
inductive ScanMode where
  | code
  | quoted (mark : Char)
  | escaped (mark : Char)
  /-- After a slash, which may begin a comment. -/
  | slash
  | lineComment
  | blockComment
  /-- After a star inside a block comment. -/
  | commentStar
  /-- Inside a name, whose characters so far are given in reverse. -/
  | word (isProperty : Bool) (letters : List Char)
  | number
  deriving Repr, DecidableEq

/-- The characters that begin a name. -/
def isStart (c : Char) : Bool :=
  Text.isLetter c || c == '_' || c == '$'

/-- The characters that a name goes on with. -/
def isPart (c : Char) : Bool :=
  Text.isAlphanumeric c || c == '_' || c == '$'

/-- A name is a property if a dot stands before it, blanks aside, that is not the last of three.
The characters before the name are given in reverse. -/
def followsDot (before : List Char) : Bool :=
  match Text.trimStartChars before with
  | '.' :: '.' :: '.' :: _ => false
  | '.' :: _ => true
  | _ => false

/-- The mode after a character that is read as code. -/
def enter (before : List Char) (c : Char) : ScanMode :=
  if c == '\x27' || c == '\x22' then .quoted c
  else if c == '/' then .slash
  else if isStart c then .word (followsDot before) [c]
  else if Text.isAsciiDigit c then .number
  else .code

/-- The mode after one more character. -/
def ScanMode.step (mode : ScanMode) (before : List Char) (c : Char) : ScanMode :=
  match mode with
  | .code => enter before c
  | .quoted mark =>
      if c == '\\' then .escaped mark
      else if c == mark || c == '\n' then .code
      else .quoted mark
  | .escaped mark => .quoted mark
  | .slash =>
      if c == '/' then .lineComment
      else if c == '*' then .blockComment
      else enter before c
  | .lineComment => if c == '\n' then .code else .lineComment
  | .blockComment => if c == '*' then .commentStar else .blockComment
  | .commentStar =>
      if c == '/' then .code
      else if c == '*' then .commentStar
      else .blockComment
  | .word isProperty letters =>
      if isPart c then .word isProperty (c :: letters) else enter before c
  | .number =>
      if Text.isAsciiAlphanumeric c || c == '.' then .number else enter before c

/-- The name that ends when the scan leaves a mode, properties aside. -/
def ScanMode.name? : ScanMode → Option (List Char)
  | .word false letters => some letters.reverse
  | _ => none

/-- A name goes on through this character. -/
def ScanMode.continues (mode : ScanMode) (c : Char) : Bool :=
  match mode with
  | .word _ _ => isPart c
  | _ => false

/-- The names of the code that follows, in order and with repetitions. -/
def namesFrom (mode : ScanMode) (before : List Char) : List Char → List (List Char)
  | [] => mode.name?.toList
  | c :: rest =>
      let found := if mode.continues c then [] else mode.name?.toList
      found ++ namesFrom (mode.step before c) (c :: before) rest

/-- The names that code refers to, each once, in the order in which they first occur. -/
def referenced (code : String) : List String :=
  ((namesFrom .code [] code.toList).map String.ofList).eraseDups

/-- The members of `reactive` that code refers to, in their own order. -/
def dependencies (code : String) (reactive : List String) : List String :=
  let used := referenced code
  reactive.filter used.contains

end Identifier
end Hookify
