import Hookify.Text.Segments

namespace Hookify
namespace Text

/-!
# Quoted text

Script literals may be quoted in three ways.  Reading takes the quotes off and
leaves escape sequences as they are; writing always uses single quotes, and
puts a backslash before each backslash and each single quote.
-/

/-- The quotes of a script literal, in the order in which they are tried. -/
def quoteMarks : List Char := ['\x27', '\x22', '\x60']

/-- Remove one layer of matching quotes; the blanks around the literal go in any case. -/
def unquoteChars (chars : List Char) : List Char :=
  let literal := trimChars chars
  (quoteMarks.findSome? fun mark => enclosed? mark mark literal).getD literal

/-- A character inside a single-quoted literal. -/
def escapeChar (c : Char) : List Char :=
  if c == '\\' || c == '\x27' then ['\\', c] else [c]

/-- A single-quoted literal. -/
def quoteChars (chars : List Char) : List Char :=
  '\x27' :: chars.flatMap escapeChar ++ ['\x27']

/-- Remove one layer of matching quotes. -/
def unquote : String → String := overChars unquoteChars

/-- A single-quoted literal. -/
def quote : String → String := overChars quoteChars

end Text
end Hookify
