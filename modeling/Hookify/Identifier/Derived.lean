import Hookify.Component.Facet
import Hookify.Text.Case
import Hookify.Text.Segments

namespace Hookify
namespace Identifier

/-!
# Derived identifiers

Each generated name is a function of the selector, file name or event that it
stands for, so that all parts of a conversion arrive at the same name without
asking each other.  The key of a selector is the common core: its runs of
ASCII letters and digits, joined by underscores and with a small first letter.
Selectors with the same key are taken to mean the same element.
-/

/-- Runs of ASCII letters and digits; every other character only separates. -/
def asciiRuns (chars : List Char) : List (List Char) :=
  Text.runs Text.isAsciiAlphanumeric chars

/-- A text with its first character in small form. -/
def lowerFirst : String → String :=
  Text.overChars (Text.mapFirst Text.lowerChar)

/-- A text with its first character in capital form. -/
def upperFirst : String → String :=
  Text.overChars (Text.mapFirst Text.upperChar)

/-- Parts joined by underscores. -/
def joinUnderscore : List (List Char) → List Char
  | [] => []
  | [part] => part
  | part :: next :: rest => part ++ '_' :: joinUnderscore (next :: rest)

/-- The key of a selector, on characters.  A selector without letters or digits means just some
element, and a key must not begin with a digit. -/
def selectorKeyChars (selector : List Char) : List Char :=
  match joinUnderscore (asciiRuns selector) with
  | [] => ['e', 'l', 'e', 'm', 'e', 'n', 't']
  | first :: rest =>
      if Text.isAsciiDigit first then 'e' :: 'l' :: '_' :: first :: rest
      else Text.asciiLowerChar first :: rest

/-- The key of a selector: an identifier that stands for the element it selects. -/
def selectorKey : String → String := Text.overChars selectorKeyChars

/-- Runs of letters and digits, each with a capital first letter, without separators. -/
def pascalChars (chars : List Char) : List Char :=
  (asciiRuns chars).flatMap (Text.mapFirst fun c => [Text.asciiUpperChar c])

/-- A text in Pascal case: `submit-btn` becomes `SubmitBtn`. -/
def pascalCase : String → String := Text.overChars pascalChars

/-- A style property as a script names it: `background-color` becomes `backgroundColor`. -/
def cssProperty (property : String) : String :=
  match Text.runs (· != '-') (Text.trimChars property.toList) with
  | [] => ""
  | first :: others =>
      String.ofList (first ++ others.flatMap (Text.mapFirst Text.upperChar))

/-- The reference that holds the element of a selector. -/
def reference (selector : String) : String :=
  selectorKey selector ++ "Ref"

/-- The state variable that owns a facet of the element of a selector. -/
def state (selector : String) (facet : Facet) : String :=
  selectorKey selector ++ facet.suffix

/-- The function that sets a state variable. -/
def setter (identifier : String) : String :=
  "set" ++ upperFirst identifier

/-- The handler of an event, named after the element, the delegated child if there is one, and
the event. -/
def handler (target : String) (delegate : Option String) (event : String) : String :=
  let child := match delegate with
    | some selector => pascalCase (selectorKey selector)
    | none => ""
  "handle" ++ pascalCase (selectorKey target) ++ child ++ pascalCase event

/-- The component of a file, from the file name without its extension. -/
def component (stem : String) : String :=
  let name := pascalCase stem
  match name.toList with
  | [] => "Component"
  | first :: _ => if Text.isAsciiDigit first then "Component" ++ name else name

/-- The characters of a name that is written in capitals. -/
def isCapitalPart (c : Char) : Bool :=
  ('A' ≤ c && c ≤ 'Z') || Text.isAsciiDigit c || c == '_' || c == '$'

/-- Names that mark a constant by their form, whatever the script does with them. -/
def isConstantName (name : String) : Bool :=
  let chars := name.toList
  (chars.any Text.isAsciiLetter && chars.all isCapitalPart) ||
    Text.startsWith "CONFIG" name || Text.startsWith "CONST" name

end Identifier
end Hookify
