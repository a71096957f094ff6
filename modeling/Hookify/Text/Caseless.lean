import Hookify.Text.Case

namespace Hookify
namespace Text

/-!
# Words in either case

Markup may be written in capitals or small letters.  Two letters are taken for
the same if simple case folding makes them equal; beyond ASCII that concerns
the long s and the sign for kelvin.  Words are given in small ASCII letters.
-/

/-- A character is the given small letter, in either case. -/
def isLetterOf (letter c : Char) : Bool :=
  asciiLowerChar c == letter || (letter == 's' && c == 'ſ') ||
    (letter == 'k' && c == '\u212a')

/-- What follows a word at the head of a text. -/
def afterWord? : List Char → List Char → Option (List Char)
  | [], chars => some chars
  | _ :: _, [] => none
  | letter :: word, c :: rest => if isLetterOf letter c then afterWord? word rest else none

/-- A word occurs in a text. -/
def hasWord (word : List Char) : List Char → Bool
  | [] => word.isEmpty
  | c :: rest => (afterWord? word (c :: rest)).isSome || hasWord word rest

end Text
end Hookify
