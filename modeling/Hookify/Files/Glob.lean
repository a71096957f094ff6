import Hookify.Text.Segments

namespace Hookify

/-!
# Patterns of paths

A pattern is a list of parts.  Each part takes something off the front of a
path, in one way or in several, and a pattern matches a path if its parts, one
after the other, can take off all of it.
-/

/-- A part of a pattern. -/
inductive GlobPart where
  /-- One character that is in one of some ranges, or in none of them. -/
  | one (negated : Bool) (ranges : List (Char × Char))
  /-- Any number of characters, slashes among them or not. -/
  | run (slashes : Bool)
  /-- Any number of directories, the slash behind each included; or all of the rest. -/
  | directories
  /-- One of some alternatives. -/
  | either (branches : List (List GlobPart))
  deriving Repr, Inhabited

/-- A pattern. -/
abbrev Glob := List GlobPart

namespace Glob

/-- One given character. -/
def literal (c : Char) : GlobPart :=
  .one false [(c, c)]

/-- What can be left of a text when any number of its characters are taken off. -/
def afterRun (slashes : Bool) : List Char → List (List Char)
  | [] => [[]]
  | c :: rest =>
      if c == '/' && ! slashes then [c :: rest] else (c :: rest) :: afterRun slashes rest

/-- What follows the slashes of a text. -/
def afterSlashes : List Char → List (List Char)
  | [] => []
  | c :: rest => if c == '/' then rest :: afterSlashes rest else afterSlashes rest

mutual

/-- What a part can leave of a text. -/
def rests : GlobPart → List Char → List (List Char)
  | .one negated ranges, text =>
      match text with
      | c :: rest =>
          if (ranges.any fun range => range.1 ≤ c && c ≤ range.2) != negated then [rest] else []
      | [] => []
  | .run slashes, text => afterRun slashes text
  | .directories, text => text :: (afterSlashes text ++ [[]])
  | .either branches, text => restsOfBranches branches text

/-- What parts, one after the other, can leave of texts. -/
def restsOf : List GlobPart → List (List Char) → List (List Char)
  | [], texts => texts
  | part :: parts, texts => restsOf parts (texts.flatMap (rests part)).eraseDups

/-- What one of some alternatives can leave of a text. -/
def restsOfBranches : List (List GlobPart) → List Char → List (List Char)
  | [], _ => []
  | branch :: branches, text => restsOf branch [text] ++ restsOfBranches branches text

end

/-- A pattern matches a text. -/
def matchesChars (glob : Glob) (text : List Char) : Bool :=
  (restsOf glob [text]).any List.isEmpty

/-! ## Patterns in settings -/

/-- The ranges of a class: three characters with a dash in the middle, or one character. -/
def classRanges : List Char → List (Char × Char)
  | first :: '-' :: last :: rest => (first, last) :: classRanges rest
  | c :: rest => (c, c) :: classRanges rest
  | [] => []

/-- The characters of a class and what follows it. The first one may be a closing bracket. -/
def classChars? : List Char → Option (List Char × List Char)
  | first :: rest =>
      (Text.upTo? (· == ']') rest).map fun (inside, behind) => (first :: inside, behind)
  | [] => none

/-- A class and what follows it, read behind the opening bracket. -/
def class? : List Char → Option (GlobPart × List Char)
  | '!' :: rest =>
      (classChars? rest).map fun (chars, behind) => (.one true (classRanges chars), behind)
  | chars =>
      (classChars? chars).map fun (chars, behind) => (.one false (classRanges chars), behind)

/-- A pattern of the settings, read behind a character.  A star and a question mark may stand for
slashes; two stars have to stand alone between slashes. `fuel` bounds the number of parts. -/
def settingFrom : Nat → Option Char → List Char → Option Glob
  | 0, _, _ => none
  | _ + 1, _, [] => some []
  | fuel + 1, before, c :: rest =>
      if c == '?' then (settingFrom fuel (some c) rest).map (.one true [] :: ·)
      else if c == '[' then
        match class? rest with
        | some (part, behind) => (settingFrom fuel (some ']') behind).map (part :: ·)
        | none => none
      else if c == '*' then
        match rest with
        | '*' :: behind =>
            if before.isNone || before == some '/' then
              match behind with
              | '/' :: behind => (settingFrom fuel (some '/') behind).map (.directories :: ·)
              | [] => some [.directories]
              | _ => none
            else none
        | _ => (settingFrom fuel (some c) rest).map (.run true :: ·)
      else (settingFrom fuel (some c) rest).map (literal c :: ·)

/-- A pattern of the settings, unless it is malformed. -/
def ofSetting? (pattern : String) : Option Glob :=
  settingFrom (pattern.toList.length + 1) none pattern.toList

end Glob
end Hookify
