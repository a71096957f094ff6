import Hookify.Text.Blank
import Hookify.Text.Letter

namespace Hookify
namespace Script

/-!
# Lexemes

Reading the next lexeme off the text of a script.  A slash is always read as an
operator here, since only the grammar knows where a regular expression may
stand; the functions that read regular expressions and the pieces of templates
are offered beside the general one.

Every reader returns the characters it has taken and the rest, so nothing is
lost between two lexemes.
-/

/-- What a lexeme is. Words and signs carry their characters. -/
inductive Lexeme where
  | word (letters : List Char)
  | sign (chars : List Char)
  | number
  | string
  | privateName
  /-- A character that begins no lexeme. -/
  | stray
  /-- The end of the script. -/
  | finish
  deriving Repr, DecidableEq, Inhabited

/-- White space between lexemes: the blanks and three characters without width. -/
def isSpace (c : Char) : Bool :=
  Text.isBlank c || c.toNat == 0xFEFF || c.toNat == 0x2060 || c.toNat == 0x200B

/-- The characters that end a line, and with it a comment that began with two slashes. -/
def isLineEnd (c : Char) : Bool :=
  c == '\n' || c == '\r' || c.toNat == 0x2028 || c.toNat == 0x2029

/-- Characters that stand for operators, brackets, quotes and the like. -/
def isSignChar (c : Char) : Bool :=
  ":;\x60\x22\x27@#.,|^&<=>+-*/\\%?!~()[]\x7b\x7d".toList.contains c

/-- The characters that a name may begin with: all that have no other meaning. -/
def isNameStart (c : Char) : Bool :=
  0x20 ≤ c.toNat && ! isSpace c && ! Text.isAsciiDigit c && ! isSignChar c

/-- The characters that a name may go on with. -/
def isNamePart (c : Char) : Bool :=
  isNameStart c || Text.isAsciiDigit c

/-- Signs of several characters, each before those that begin it. -/
def longSigns : List (List Char) :=
  [ ">>>=".toList, "...".toList, "===".toList, "!==".toList, "**=".toList, "<<=".toList,
    ">>=".toList, ">>>".toList, "&&=".toList, "||=".toList, "??=".toList, "=>".toList,
    "==".toList, "!=".toList, "<=".toList, ">=".toList, "&&".toList, "||".toList, "??".toList,
    "?.".toList, "++".toList, "--".toList, "+=".toList, "-=".toList, "*=".toList, "/=".toList,
    "%=".toList, "&=".toList, "|=".toList, "^=".toList, "<<".toList, ">>".toList, "**".toList ]

/-- A question mark and a dot are two signs if a digit follows, as in `a?.5:b`. -/
def isOptionalDigit : List Char → Bool
  | '?' :: '.' :: c :: _ => Text.isAsciiDigit c
  | _ => false

/-- The sign at the head of the text. -/
def readSign (chars : List Char) : List Char :=
  match longSigns.find? (·.isPrefixOf chars) with
  | some sign => if isOptionalDigit chars then chars.take 1 else sign
  | none => chars.take 1

/-- The number of characters of a name; an escape `\u` counts with its digits. -/
def nameLength : List Char → Nat
  | [] => 0
  | '\\' :: 'u' :: rest => nameLength rest + 2
  | c :: rest => if isNamePart c then nameLength rest + 1 else 0

/-- The number of characters of a quoted literal behind its opening quote. A line end must be
escaped; none if the closing quote is missing. -/
def quotedLength? (mark : Char) : List Char → Option Nat
  | [] => none
  | ['\\'] => none
  | '\\' :: '\r' :: '\n' :: rest => (quotedLength? mark rest).map (· + 3)
  | '\\' :: _ :: rest => (quotedLength? mark rest).map (· + 2)
  | c :: rest =>
      if c == mark then some 1
      else if c == '\n' || c == '\r' then none
      else (quotedLength? mark rest).map (· + 1)

/-- The digits at the head of a text, with underscores between them. -/
def digitsLength (chars : List Char) : Nat :=
  (chars.takeWhile fun c => Text.isAsciiDigit c || c == '_').length

/-- The number of characters of an exponent. -/
def exponentLength : List Char → Nat
  | mark :: rest =>
      if mark == 'e' || mark == 'E' then
        match rest with
        | sign :: digits =>
            if (sign == '+' || sign == '-') && digitsLength digits != 0 then
              digitsLength digits + 2
            else if digitsLength rest != 0 then
              digitsLength rest + 1
            else
              0
        | [] => 0
      else
        0
  | [] => 0

/-- The number of characters of a number. -/
def numberLength (chars : List Char) : Nat :=
  let radix := match chars with
    | '0' :: c :: _ => "xXoObB".toList.contains c
    | _ => false
  if radix then
    (chars.takeWhile fun c => Text.isAsciiAlphanumeric c || c == '_').length
  else
    let whole := digitsLength chars
    let point := match chars.drop whole with
      | '.' :: rest => digitsLength rest + 1
      | _ => 0
    let exponent := exponentLength (chars.drop (whole + point))
    let mark := match chars.drop (whole + point + exponent) with
      | 'n' :: _ => 1
      | _ => 0
    whole + point + exponent + mark

/-- A number begins here: with a digit, or with a point and a digit. -/
def beginsNumber : List Char → Bool
  | '.' :: c :: _ => Text.isAsciiDigit c
  | c :: _ => Text.isAsciiDigit c
  | [] => false

/-- The lexeme at the head of a text without leading space, and its length. -/
def readLexeme (chars : List Char) : Lexeme × Nat :=
  match chars with
  | [] => (.finish, 0)
  | c :: rest =>
      if isNameStart c || ['\\', 'u'].isPrefixOf chars then
        let letters := chars.take (nameLength chars)
        (.word letters, letters.length)
      else if beginsNumber chars then
        (.number, numberLength chars)
      else if c == '\x22' || c == '\x27' then
        match quotedLength? c rest with
        | some length => (.string, length + 1)
        | none => (.stray, 1)
      else if c == '#' then
        let length := nameLength rest
        if length == 0 then (.stray, 1) else (.privateName, length + 1)
      else if c == '\\' || ! isSignChar c then
        (.stray, 1)
      else
        let sign := readSign chars
        (.sign sign, sign.length)

/-- The number of characters of the body of a regular expression with its closing slash. A slash
inside a character class does not close it. -/
def regexBodyLength? (inClass : Bool) : List Char → Option Nat
  | [] => none
  | ['\\'] => none
  | '\\' :: _ :: rest => (regexBodyLength? inClass rest).map (· + 2)
  | c :: rest =>
      if isLineEnd c then none
      else if c == '/' && ! inClass then some 1
      else
        let inside := if c == '[' then true else if c == ']' then false else inClass
        (regexBodyLength? inside rest).map (· + 1)

/-- The number of characters of a regular expression with its flags. -/
def regexLength? : List Char → Option Nat
  | '/' :: rest =>
      (regexBodyLength? false rest).map fun length =>
        length + 1 + ((rest.drop length).takeWhile Text.isAsciiLetter).length
  | _ => none

/-- The number of characters of a template up to an escape, a substitution or the end. -/
def templateTextLength : List Char → Nat
  | [] => 0
  | '$' :: '\x7b' :: _ => 0
  | c :: rest => if c == '\x60' || c == '\\' then 0 else templateTextLength rest + 1

/-- The number of characters of an escape sequence. -/
def escapeLength : List Char → Nat
  | '\\' :: 'x' :: rest => 2 + min 2 rest.length
  | '\\' :: 'u' :: '\x7b' :: rest => 3 + (rest.takeWhile (· != '\x7d')).length + 1
  | '\\' :: 'u' :: rest => 2 + min 4 rest.length
  | '\\' :: '\r' :: '\n' :: _ => 3
  | '\\' :: c :: rest =>
      if '0' ≤ c && c ≤ '7' then
        1 + ((c :: rest).take 3 |>.takeWhile fun d => '0' ≤ d && d ≤ '7').length
      else
        2
  | chars => min 1 chars.length

/-! ## Space and comments -/

/-- A comment with its place in the script. -/
structure Remark where
  /-- Written as a comment of a page, `<!-- …`, and not as one of the script. -/
  isHtml : Bool
  start : Nat
  stop : Nat
  deriving Repr

/-- Where the reading of space and comments stands. -/
inductive GapMode where
  | space
  | line (start : Nat)
  /-- At the star of the opening of a block comment. -/
  | opening (start : Nat)
  /-- Inside a block comment; tells whether the character before was a star. -/
  | block (start : Nat) (afterStar : Bool)

/-- What was found between two lexemes. -/
structure Gap where
  remarks : List Remark
  hasNewline : Bool
  stop : Nat
  rest : List Char

/-- The comment that is open at the end of a script. -/
def GapMode.remark? (mode : GapMode) (stop : Nat) : Option Remark :=
  match mode with
  | .space => none
  | .line start | .opening start | .block start _ => some ⟨false, start, stop⟩

/-- Pass over space and comments.  The remarks found are put before those given. -/
def passGap (mode : GapMode) (remarks : List Remark) (hasNewline : Bool) (position : Nat) :
    List Char → Gap
  | [] => ⟨(mode.remark? position).toList ++ remarks, hasNewline, position, []⟩
  | c :: rest =>
      match mode with
      | .space =>
          if c == '/' && rest.head? == some '/' then
            passGap (.line position) remarks hasNewline (position + 1) rest
          else if c == '/' && rest.head? == some '*' then
            passGap (.opening position) remarks hasNewline (position + 1) rest
          else if isSpace c then
            passGap .space remarks (hasNewline || isLineEnd c) (position + 1) rest
          else
            ⟨remarks, hasNewline, position, c :: rest⟩
      | .line start =>
          if isLineEnd c then
            passGap .space (⟨false, start, position⟩ :: remarks) true (position + 1) rest
          else
            passGap (.line start) remarks hasNewline (position + 1) rest
      | .opening start => passGap (.block start false) remarks hasNewline (position + 1) rest
      | .block start afterStar =>
          if afterStar && c == '/' then
            passGap .space (⟨false, start, position + 1⟩ :: remarks) hasNewline (position + 1) rest
          else
            passGap (.block start (c == '*')) remarks (hasNewline || isLineEnd c) (position + 1)
              rest

end Script
end Hookify
