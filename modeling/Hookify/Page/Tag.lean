import Hookify.Text.Caseless
import Hookify.Text.Letter
import Hookify.Text.Segments

namespace Hookify
namespace Page

/-!
# Tags

A page is not parsed.  Only the tags that matter are looked for, wherever they
stand, so a tag inside a comment or a script counts like any other.  The
attributes of a tag end at the first `>`, quoted or not, and an element ends at
its first closing tag.  What cannot be completed is passed over, and the search
goes on behind its first character.
-/

/-- Everything that `read?` finds, from the left and without overlap.  It gives what it has found
with the rest behind it; the next `skip` characters belong to what was found last. -/
def findAllFrom {Found : Type} (read? : List Char → Option (Found × List Char)) :
    Nat → List Char → List Found
  | _, [] => []
  | skip + 1, _ :: rest => findAllFrom read? skip rest
  | 0, c :: rest =>
      match read? (c :: rest) with
      | some (found, behind) => found :: findAllFrom read? (rest.length - behind.length) rest
      | none => findAllFrom read? 0 rest

/-- Everything that `read?` finds, from the left and without overlap. -/
def findAll {Found : Type} (read? : List Char → Option (Found × List Char))
    (chars : List Char) : List Found :=
  findAllFrom read? 0 chars

/-- A word goes on with the first character. -/
def continuesWord : List Char → Bool
  | [] => false
  | c :: _ => Text.isWordChar c

/-- The attributes of an opening tag of the given name, and what follows the tag. -/
def opening? (name : List Char) : List Char → Option (List Char × List Char)
  | '<' :: rest =>
      match Text.afterWord? name rest with
      | some behind => if continuesWord behind then none else Text.upTo? (· == '>') behind
      | none => none
  | _ => none

/-- What follows a closing tag of the given name. Blanks may stand behind the name. -/
def closing? (name : List Char) : List Char → Option (List Char)
  | '<' :: '/' :: rest =>
      match (Text.afterWord? name rest).map Text.trimStartChars with
      | some ('>' :: behind) => some behind
      | _ => none
  | _ => none

/-- What stands before the first closing tag of the given name, and what follows the tag. -/
def untilClosing? (name : List Char) : List Char → Option (List Char × List Char)
  | [] => none
  | c :: rest =>
      match closing? name (c :: rest) with
      | some behind => some ([], behind)
      | none => (untilClosing? name rest).map fun (body, behind) => (c :: body, behind)

/-- An element: what stands in its opening tag, and what stands between its tags. -/
structure Element where
  attributes : List Char
  body : List Char
  deriving Repr, DecidableEq

/-- An element of the given name, and what follows it. -/
def element? (name : List Char) (chars : List Char) : Option (Element × List Char) :=
  match opening? name chars with
  | some (attributes, inside) =>
      (untilClosing? name inside).map fun (body, behind) => (⟨attributes, body⟩, behind)
  | none => none

/-! ## Attributes -/

/-- Either quote ends a value, no matter which one began it. -/
def isQuote (c : Char) : Bool :=
  c == '\x22' || c == '\x27'

/-- The quoted value of an attribute that begins here. -/
def valueAt? (name : List Char) (chars : List Char) : Option (List Char) :=
  match (Text.afterWord? name chars).map Text.trimStartChars with
  | some ('=' :: behind) =>
      match Text.trimStartChars behind with
      | c :: value => if isQuote c then (Text.upTo? isQuote value).map (·.1) else none
      | [] => none
  | _ => none

/-- The first accepted value of an attribute. Its name stands at the beginning of a word, which
may be the last part of a longer name with dashes. -/
def findValue? (name : List Char) (accept : List Char → Bool) (inWord : Bool) :
    List Char → Option (List Char)
  | [] => none
  | c :: rest =>
      match if inWord then none else (valueAt? name (c :: rest)).filter accept with
      | some value => some value
      | none => findValue? name accept (Text.isWordChar c) rest

/-- The value of an attribute among the attributes of a tag. -/
def value? (name : String) (attributes : List Char) : Option (List Char) :=
  findValue? name.toList (fun _ => true) false attributes

end Page
end Hookify
