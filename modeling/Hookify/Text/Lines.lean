import Hookify.Text.Segments

namespace Hookify
namespace Text

/-!
# Lines and indentation

Code cut out of a script keeps the indentation it had there.  The functions of
this module bring such fragments to a normal form, in which neither the depth
of the place it stood at nor runs of blank lines remain, so that a printer may
indent them anew.

A line ends at a line feed; one carriage return before the line feed belongs
to the line end.  A final line end does not begin another line.
-/

/-- Drop one carriage return at the head of a reversed line. -/
def dropReturn : List Char → List Char
  | '\r' :: line => line
  | line => line

/-- The lines of a text; `current` holds the line so far, reversed. -/
def linesFrom (current : List Char) : List Char → List (List Char)
  | [] => if current.isEmpty then [] else [current.reverse]
  | c :: rest =>
      if c == '\n' then (dropReturn current).reverse :: linesFrom [] rest
      else linesFrom (c :: current) rest

/-- The lines of a text, without their ends. -/
def lineChars (chars : List Char) : List (List Char) :=
  linesFrom [] chars

/-- Lines with a line feed between neighbours. -/
def joinLines : List (List Char) → List Char
  | [] => []
  | [line] => line
  | line :: next :: rest => line ++ '\n' :: joinLines (next :: rest)

/-- How many blanks a line begins with. -/
def indentWidth (line : List Char) : Nat :=
  (line.takeWhile isBlank).length

/-- Drop up to so many blanks from the start of a line. -/
def stripIndent : Nat → List Char → List Char
  | 0, line => line
  | _ + 1, [] => []
  | width + 1, c :: rest => if isBlank c then stripIndent width rest else c :: rest

/-- The least indentation of the lines that are not blank; zero if there are none. -/
def commonIndent (lines : List (List Char)) : Nat :=
  ((lines.filter (! isBlankChars ·)).map indentWidth).min?.getD 0

/-- Remove the indentation that all lines share; blank lines become empty. -/
def dedentChars (chars : List Char) : List Char :=
  let lines := lineChars chars
  let width := commonIndent lines
  joinLines (lines.map fun line => if isBlankChars line then [] else stripIndent width line)

/-- Remove up to `column` blanks from every line but the first.  A fragment cut out of the
middle of a line has no indentation on its first line and the full one on all others. -/
def dedentContinuationChars (column : Nat) (chars : List Char) : List Char :=
  match lineChars chars with
  | [] => []
  | first :: others => joinLines (first :: others.map (stripIndent column))

/-- Trimmed lines with every run of empty ones reduced to one; `blankBefore` tells that the line
before was empty, or that there was none. -/
def squeezeLines (blankBefore : Bool) : List (List Char) → List (List Char)
  | [] => []
  | line :: rest =>
      let trimmed := trimEndChars line
      if trimmed.isEmpty then
        if blankBefore then squeezeLines true rest else [] :: squeezeLines true rest
      else
        trimmed :: squeezeLines false rest

/-- Drop the empty lines at the end. -/
def dropTrailingEmpty (lines : List (List Char)) : List (List Char) :=
  (lines.reverse.dropWhile List.isEmpty).reverse

/-- Trim line ends, reduce runs of blank lines to one and drop those at both ends. -/
def tidyChars (chars : List Char) : List Char :=
  joinLines (dropTrailingEmpty (squeezeLines true (lineChars chars)))

/-- What stands between the braces of a block, in normal form. -/
def blockInnerChars (chars : List Char) : List Char :=
  let trimmed := trimChars chars
  dedentChars (tidyChars ((enclosed? '\x7b' '\x7d' trimmed).getD trimmed))

/-- Put `margin` before every line that is not empty. -/
def indentChars (margin : List Char) (chars : List Char) : List Char :=
  joinLines ((lineChars chars).map fun line => if line.isEmpty then [] else margin ++ line)

/-- Put `margin` before every line but the first that is not empty. -/
def indentContinuationChars (margin : List Char) (chars : List Char) : List Char :=
  match lineChars chars with
  | [] => []
  | first :: others =>
      joinLines (first :: others.map fun line => if line.isEmpty then [] else margin ++ line)

/-- The lines of a text. -/
def lines (text : String) : List String :=
  (lineChars text.toList).map String.ofList

/-- Remove the indentation that all lines of a text share. -/
def dedent : String → String := overChars dedentChars

/-- Remove up to `column` blanks from every line of a text but the first. -/
def dedentContinuation (column : Nat) : String → String :=
  overChars (dedentContinuationChars column)

/-- Trim line ends and reduce runs of blank lines. -/
def tidy : String → String := overChars tidyChars

/-- What stands between the braces of a block, in normal form. -/
def blockInner : String → String := overChars blockInnerChars

/-- Put `margin` before every line of a text that is not empty. -/
def indent (margin : String) : String → String :=
  overChars (indentChars margin.toList)

/-- Put `margin` before every line of a text but the first that is not empty. -/
def indentContinuation (margin : String) : String → String :=
  overChars (indentContinuationChars margin.toList)

/-- Spaces and tabs: the characters that indent a line of a script. -/
def isMargin (c : Char) : Bool :=
  c == ' ' || c == '\t'

/-- The indentation of the line on which a text would go on after `before`, reading on into
`after`. -/
def marginAt (before after : List Char) : List Char :=
  let lineStart := (before.reverse.takeWhile (· != '\n')).reverse
  (lineStart ++ after).takeWhile isMargin

/-- Cut a text after so many bytes of its UTF-8 form; none beyond the end or inside a character. -/
def splitAtByte? : Nat → List Char → Option (List Char × List Char)
  | 0, rest => some ([], rest)
  | _ + 1, [] => none
  | offset + 1, c :: rest =>
      if c.utf8Size ≤ offset + 1 then
        (splitAtByte? (offset + 1 - c.utf8Size) rest).map fun (before, after) =>
          (c :: before, after)
      else
        none

/-- The indentation of the line that holds a byte offset, if the offset is one of the text. -/
def lineIndent? (text : String) (offset : Nat) : Option String :=
  (splitAtByte? offset text.toList).map fun (before, after) =>
    String.ofList (marginAt before after)

end Text
end Hookify
