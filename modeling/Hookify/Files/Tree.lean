import Hookify.Files.Path

namespace Hookify

/-!
# File trees

The files of the working directory, as a value.  A location in the tree is the
list of the names that lead to it.  A path is followed name by name, and every
name before the last one has to be that of a directory; what lies outside the
working directory is not known and counts as missing.
-/

/-- What a file holds: a text, or bytes that are no text. -/
inductive Contents where
  | text (text : String)
  | binary (bytes : List UInt8)
  deriving Repr, DecidableEq

namespace Contents

/-- The contents of a file that holds bytes: a text if they are one. -/
def ofBytes (bytes : List UInt8) : Contents :=
  match String.fromUTF8? ⟨bytes.toArray⟩ with
  | some content => .text content
  | none => .binary bytes

/-- The bytes that a file holds. -/
def bytes : Contents → List UInt8
  | .text content => content.toUTF8.toList
  | .binary data => data

end Contents

/-- A file, or a directory with what it holds by name. -/
inductive FileTree where
  | file (contents : Contents)
  | directory (entries : List (String × FileTree))
  deriving Repr, Inhabited

/-- What can go wrong with a file. -/
inductive FileError where
  | missing
  | busy
  | occupied
  | notDirectory
  | isDirectory
  | notText
  deriving Repr, DecidableEq

/-- The error in words. -/
def FileError.text : FileError → String
  | .missing => "No such file or directory (os error 2)"
  | .busy => "Device or resource busy (os error 16)"
  | .occupied => "File exists (os error 17)"
  | .notDirectory => "Not a directory (os error 20)"
  | .isDirectory => "Is a directory (os error 21)"
  | .notText => "stream did not contain valid UTF-8"

/-- A location in a tree. -/
abbrev Location := List String

namespace FileTree

/-- The tree is a directory. -/
def isDirectory : FileTree → Bool
  | .directory _ => true
  | .file _ => false

/-- What is at a location. -/
def find? : FileTree → Location → Option FileTree
  | tree, [] => some tree
  | .file _, _ :: _ => none
  | .directory entries, name :: location =>
      match entries.lookup name with
      | some child => child.find? location
      | none => none

/-- The entries with a new one under a name, in the place of the old one if there is one. -/
def setEntry (name : String) (child : FileTree) :
    List (String × FileTree) → List (String × FileTree)
  | [] => [(name, child)]
  | (other, old) :: rest =>
      if other == name then (name, child) :: rest else (other, old) :: setEntry name child rest

/-- The tree with something else at a location. Directories that are missing on the way are
added. -/
def put (node : FileTree) : Location → FileTree → FileTree
  | [], _ => node
  | _ :: _, .file contents => .file contents
  | name :: location, .directory entries =>
      let old := (entries.lookup name).getD (.directory [])
      .directory (setEntry name (put node location old) entries)

/-- The tree without what is at a location. -/
def erase : Location → FileTree → FileTree
  | [], tree => tree
  | _ :: _, .file contents => .file contents
  | name :: location, .directory entries =>
      if location.isEmpty then .directory (entries.filter (·.1 != name))
      else
        match entries.lookup name with
        | some child => .directory (setEntry name (erase location child) entries)
        | none => .directory entries

/-! ## Following paths -/

/-- There is a directory at a location. -/
def checkDirectory (tree : FileTree) (location : Location) : Except FileError Unit :=
  match tree.find? location with
  | some (.directory _) => .ok ()
  | some (.file _) => .error .notDirectory
  | none => .error .missing

/-- The location that segments of a path lead to from another one. Whether there is anything at the
last one is not asked. -/
def followFrom (tree : FileTree) (location : Location) :
    List (List Char) → Except FileError Location
  | [] => .ok location
  | segment :: rest => do
      tree.checkDirectory location
      if segment.isEmpty || segment == ['.'] then tree.followFrom location rest
      else if segment == ['.', '.'] then
        if location.isEmpty then .error .missing else tree.followFrom location.dropLast rest
      else tree.followFrom (location ++ [String.ofList segment]) rest

/-- The location that a path leads to. -/
def follow (tree : FileTree) (path : Path) : Except FileError Location :=
  if path.text.isEmpty || path.isAbsolute then .error .missing
  else tree.followFrom [] path.segments.names

/-- What a path leads to. -/
def get (tree : FileTree) (path : Path) : Except FileError FileTree := do
  match tree.find? (<- tree.follow path) with
  | some found => .ok found
  | none => .error .missing

/-- A path leads to something. -/
def holds (tree : FileTree) (path : Path) : Bool :=
  match tree.get path with
  | .ok _ => true
  | .error _ => false

/-- A path leads to a file. -/
def holdsFile (tree : FileTree) (path : Path) : Bool :=
  match tree.get path with
  | .ok (.file _) => true
  | _ => false

/-- The location of the directory that a path leads to. -/
def directoryLocation? (tree : FileTree) (path : Path) : Option Location :=
  match tree.follow path with
  | .ok location =>
      match tree.find? location with
      | some (.directory _) => some location
      | _ => none
  | .error _ => none

/-- The location at which a file may be put for a path, over an old file if there is one. -/
def locationForFile (tree : FileTree) (path : Path) : Except FileError Location := do
  if path.text.isEmpty || path.isAbsolute then .error .missing
  match path.segments.names.reverse with
  | [] => .error .missing
  | last :: before =>
      if last.isEmpty then .error .notDirectory
      let location <- tree.followFrom [] before.reverse
      tree.checkDirectory location
      if last == ['.'] || last == ['.', '.'] then .error .busy
      let target := location ++ [String.ofList last]
      match tree.find? target with
      | some (.directory _) => .error .isDirectory
      | _ => .ok target

/-- Add the directories that segments of a path lead through, up to the first failure; what has been
added before it stays. `added` tells that a directory has been added already: from then on a file in
the way is found when its own place is to be taken, and no longer when it is to be entered. -/
def createFrom (added : Bool) (location : Location) :
    List (List Char) → FileTree → Option FileError × FileTree
  | [], tree => (none, tree)
  | segment :: rest, tree =>
      if segment.isEmpty || segment == ['.'] then createFrom added location rest tree
      else if segment == ['.', '.'] then
        if location.isEmpty then (some .missing, tree)
        else createFrom added location.dropLast rest tree
      else
        let next := location ++ [String.ofList segment]
        match tree.find? next with
        | some (.directory _) => createFrom added next rest tree
        | some (.file _) => (some (if added then .occupied else .notDirectory), tree)
        | none => createFrom true next rest (put (.directory []) next tree)

end FileTree
end Hookify
