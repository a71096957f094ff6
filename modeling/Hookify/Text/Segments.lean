import Hookify.Text.Blank

namespace Hookify
namespace Text

/-!
# Parts of a text

Cutting a text into its maximal runs of wanted characters, taking off a pair of
enclosing characters, and replacing one text by another wherever it occurs.
-/

/-- The maximal runs of characters that satisfy `keep`; `current` holds the run so far, reversed. -/
def runsFrom (keep : Char → Bool) (current : List Char) : List Char → List (List Char)
  | [] => if current.isEmpty then [] else [current.reverse]
  | c :: rest =>
      if keep c then runsFrom keep (c :: current) rest
      else if current.isEmpty then runsFrom keep [] rest
      else current.reverse :: runsFrom keep [] rest

/-- The maximal runs of characters that satisfy `keep`, in order. -/
def runs (keep : Char → Bool) (chars : List Char) : List (List Char) :=
  runsFrom keep [] chars

/-- The parts between the separators, empty ones included; `current` holds the part so far. -/
def splitFrom (separator : Char) (current : List Char) : List Char → List (List Char)
  | [] => [current.reverse]
  | c :: rest =>
      if c == separator then current.reverse :: splitFrom separator [] rest
      else splitFrom separator (c :: current) rest

/-- The parts of a text between separators; one part more than there are separators. -/
def splitOn (separator : Char) (text : String) : List String :=
  (splitFrom separator [] text.toList).map String.ofList

/-- The words of a text: the runs between blanks. -/
def words (text : String) : List String :=
  (runs (! isBlank ·) text.toList).map String.ofList

/-- The words of a text with one space between neighbours. -/
def flatten (text : String) : String :=
  String.intercalate " " (words text)

/-- What stands between an opening character at the start and a closing one at the end. -/
def enclosed? (opening closing : Char) : List Char → Option (List Char)
  | [] => none
  | first :: rest =>
      if first == opening && rest.getLast? == some closing then some rest.dropLast else none

/-- Replace a pattern that is not empty, from the left; `skip` characters belong to an occurrence
that has been replaced already. -/
def replaceFrom (pattern replacement : List Char) : Nat → List Char → List Char
  | _, [] => []
  | skip + 1, _ :: rest => replaceFrom pattern replacement skip rest
  | 0, c :: rest =>
      if pattern.isPrefixOf (c :: rest) then
        replacement ++ replaceFrom pattern replacement (pattern.length - 1) rest
      else
        c :: replaceFrom pattern replacement 0 rest

/-- Replace each occurrence of a pattern, from the left and without overlap.  The empty pattern
occurs before every character and at the end. -/
def replaceChars (pattern replacement chars : List Char) : List Char :=
  if pattern.isEmpty then
    chars.flatMap (fun c => replacement ++ [c]) ++ replacement
  else
    replaceFrom pattern replacement 0 chars

/-- Replace each occurrence of a pattern in a text. -/
def replace (pattern replacement : String) : String → String :=
  overChars (replaceChars pattern.toList replacement.toList)

/-- The first character with its image under `f`, the others as they are. -/
def mapFirst (f : Char → List Char) : List Char → List Char
  | [] => []
  | first :: rest => f first ++ rest

/-- A text begins with another one. -/
def startsWith (start text : String) : Bool :=
  start.toList.isPrefixOf text.toList

/-- A pattern occurs among some characters. -/
def occursChars (pattern : List Char) : List Char → Bool
  | [] => pattern.isEmpty
  | c :: rest => pattern.isPrefixOf (c :: rest) || occursChars pattern rest

/-- A text occurs in another one. -/
def occursIn (pattern text : String) : Bool :=
  occursChars pattern.toList text.toList

/-- What stands before the first wanted character, and what follows it. -/
def upTo? (wanted : Char → Bool) : List Char → Option (List Char × List Char)
  | [] => none
  | c :: rest =>
      if wanted c then some ([], rest)
      else (upTo? wanted rest).map fun (before, behind) => (c :: before, behind)

/-- The rest of a text behind a given start. -/
def dropStart? (start text : String) : Option String :=
  if startsWith start text then
    some (String.ofList (text.toList.drop start.toList.length))
  else
    none

end Text
end Hookify
