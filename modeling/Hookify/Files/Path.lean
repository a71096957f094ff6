import Hookify.Text.Segments

namespace Hookify

/-!
# Paths

A path is kept as it was written, and taken apart only when it is asked about.
Two paths name the same file by their parts: repeated slashes and single dots
do not count, except for a dot at the very beginning, and `..` is a part like
any other, since only the file system knows where it leads.
-/

/-- A path as it was written. -/
structure Path where
  text : String
  deriving Repr, DecidableEq, Inhabited

namespace Path

/-- A part of a path. -/
inductive Part where
  | root
  | current
  | parent
  | name (text : String)
  deriving Repr, DecidableEq

/-- A part as it is written. -/
def Part.text : Part → String
  | .root => "/"
  | .current => "."
  | .parent => ".."
  | .name text => text

/-- The texts between the slashes of a path; a slash at the beginning is noted apart. -/
structure Segments where
  rooted : Bool
  names : List (List Char)

/-- Take a path apart at its slashes. -/
def segments (path : Path) : Segments :=
  match path.text.toList with
  | '/' :: rest => ⟨true, Text.splitFrom '/' [] rest⟩
  | chars => ⟨false, Text.splitFrom '/' [] chars⟩

/-- Names with slashes between them. -/
def joinNames : List (List Char) → List Char
  | [] => []
  | [name] => name
  | name :: next :: rest => name ++ '/' :: joinNames (next :: rest)

/-- The path with the given segments. -/
def Segments.path (segments : Segments) : Path :=
  let names := joinNames segments.names
  ⟨String.ofList (if segments.rooted then '/' :: names else names)⟩

/-- A segment that does not count. A dot counts where a relative path begins. -/
def isSilent (leading : Bool) (name : List Char) : Bool :=
  name.isEmpty || (name == ['.'] && ! leading)

/-- The part that a segment stands for. -/
def partOf (name : List Char) : Part :=
  if name == ['.'] then .current
  else if name == ['.', '.'] then .parent
  else .name (String.ofList name)

/-- The parts of segments, of which the first may stand at the beginning of a relative path. -/
def partsOf (leading : Bool) : List (List Char) → List Part
  | [] => []
  | name :: rest =>
      if isSilent leading name then partsOf false rest else partOf name :: partsOf false rest

/-- The parts of a path. -/
def parts (path : Path) : List Part :=
  let segments := path.segments
  if segments.rooted then .root :: partsOf false segments.names
  else partsOf true segments.names

/-- Two paths have the same parts. -/
def same (first second : Path) : Bool :=
  first.parts == second.parts

/-- A path begins at the root. -/
def isAbsolute (path : Path) : Bool :=
  path.segments.rooted

/-! ## The last part -/

/-- Drop segments that do not count from the front of a reversed list. The last one of the list
stands at the beginning of the path. -/
def dropSilent (rooted : Bool) : List (List Char) → List (List Char)
  | [] => []
  | [only] => if isSilent (! rooted) only then [] else [only]
  | name :: next :: rest =>
      if isSilent false name then dropSilent rooted (next :: rest) else name :: next :: rest

/-- The segments in reverse, beginning with the last one that counts. -/
def reversedNames (segments : Segments) : List (List Char) :=
  dropSilent segments.rooted segments.names.reverse

/-- The name of the file, unless the path ends in dots. -/
def fileName? (path : Path) : Option String :=
  match reversedNames path.segments with
  | [] => none
  | name :: _ => if name == ['.'] || name == ['.', '.'] then none else some (String.ofList name)

/-- The directory that holds the last part. -/
def parent? (path : Path) : Option Path :=
  let segments := path.segments
  match reversedNames segments with
  | [] => none
  | _ :: rest => some (Segments.path ⟨segments.rooted, (dropSilent segments.rooted rest).reverse⟩)

/-- A file name before and behind its last dot. A dot at the beginning does not divide. -/
def splitName (name : List Char) : List Char × Option (List Char) :=
  let behind := (name.reverse.takeWhile (· != '.')).reverse
  let before := name.take (name.length - behind.length - 1)
  if behind.length == name.length || before.isEmpty then (name, none) else (before, some behind)

/-- The file name without its extension. -/
def stem? (path : Path) : Option String :=
  path.fileName?.map fun name => String.ofList (splitName name.toList).1

/-- The extension of the file name. -/
def extension? (path : Path) : Option String :=
  path.fileName?.bind fun name => (splitName name.toList).2.map String.ofList

/-! ## New paths -/

/-- A path below another one. An absolute path stays as it is. -/
def join (base path : Path) : Path :=
  if path.isAbsolute || base.text.isEmpty then path
  else if base.text.toList.getLast? == some '/' then ⟨base.text ++ path.text⟩
  else ⟨base.text ++ "/" ++ path.text⟩

/-- The path with another extension; an empty one is left out with its dot. -/
def withExtension (path : Path) (extension : String) : Path :=
  match path.stem? with
  | none => path
  | some stem =>
      let segments := path.segments
      let name := if extension.isEmpty then stem else stem ++ "." ++ extension
      Segments.path ⟨segments.rooted, ((reversedNames segments).tail.reverse ++ [name.toList])⟩

/-- The path with another file name. -/
def withFileName (path : Path) (name : String) : Path :=
  match path.fileName?, path.parent? with
  | some _, some parent => parent.join ⟨name⟩
  | _, _ => path.join ⟨name⟩

/-- The segments behind the first ones that count, so many of them, without those at either end
that do not count. -/
def dropParts (leading : Bool) : Nat → List (List Char) → List (List Char)
  | _, [] => []
  | 0, name :: rest =>
      if isSilent false name then dropParts false 0 rest
      else (dropSilent true (name :: rest).reverse).reverse
  | count + 1, name :: rest =>
      if isSilent leading name then dropParts false (count + 1) rest
      else dropParts false count rest

/-- The rest of a path below a base, if its parts begin with those of the base. -/
def below? (base path : Path) : Option Path :=
  let count := base.parts.length
  if ! base.parts.isPrefixOf path.parts then
    none
  else
    let segments := path.segments
    if count == 0 then
      some (Segments.path ⟨segments.rooted, (reversedNames segments).reverse⟩)
    else
      let left := if segments.rooted then count - 1 else count
      some (Segments.path ⟨false, dropParts (! segments.rooted) left segments.names⟩)

/-- The way from the parts of a base to those of a path: up from the base as often as needed, then
down.  There is no way up from a base that itself leads up. `started` tells that the parts differ
from here on. -/
def wayFrom (started : Bool) : List Part → List Part → Option (List Part)
  | [], [] => some []
  | part :: rest, [] => some (part :: rest)
  | [], _ :: base => (wayFrom true [] base).map (.parent :: ·)
  | part :: rest, above :: base =>
      if ! started && part == above then wayFrom false rest base
      else if above == .current then (wayFrom true rest base).map (part :: ·)
      else if above == .parent then none
      else some (.parent :: base.map (fun _ => .parent) ++ part :: rest)

/-- A path from its parts. -/
def ofParts (parts : List Part) : Path :=
  parts.foldl (fun path part => path.join ⟨part.text⟩) ⟨""⟩

/-- A path as seen from a base. An absolute path is seen as it is from a relative one. -/
def from? (base path : Path) : Option Path :=
  if path.isAbsolute != base.isAbsolute then
    if path.isAbsolute then some path else none
  else
    (wayFrom false path.parts base.parts).map ofParts

/-- A path and the directories above it, the nearest first, so many of them. -/
def ancestors (path : Path) : Nat → List Path
  | 0 => []
  | count + 1 =>
      path :: (match path.parent? with
        | some parent => parent.ancestors count
        | none => [])

/-! ## Order -/

/-- The place of a part among other kinds of parts. -/
def Part.rank : Part → Nat
  | .root => 0
  | .current => 1
  | .parent => 2
  | .name _ => 3

/-- One part comes before or with another one. Names are ordered by their characters. -/
def Part.le (first second : Part) : Bool :=
  match first, second with
  | .name left, .name right => left ≤ right
  | _, _ => first.rank ≤ second.rank

/-- Lists of parts in the order of a dictionary. -/
def partsLe : List Part → List Part → Bool
  | [], _ => true
  | _ :: _, [] => false
  | first :: rest, second :: others =>
      if first == second then partsLe rest others else Part.le first second

/-- One path comes before or with another one. -/
def le (first second : Path) : Bool :=
  partsLe first.parts second.parts

end Path
end Hookify
