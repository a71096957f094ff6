import Hookify.Files.Glob
import Hookify.Files.Ignore
import Hookify.Files.Tree
import Hookify.Settings.Basic
import Hookify.Text.Case

namespace Hookify

/-!
# The files of a batch

A batch consists of the files below its root that have one of the wanted
extensions, in the order of their paths.  Some directories are not entered: by
name, because the batch writes to them, or because of a rule in an ignore file.
Files are left out by such a rule as well, or by a pattern of the settings.
-/

/-- The rules of a directory, with its location. -/
structure IgnoreLevel where
  base : Location
  rules : List IgnoreRule

/-- What decides which files a batch consists of. -/
structure Walk where
  root : Path
  extensions : List String
  skipped : List String
  patterns : List Glob
  /-- The location of the directory that the batch writes to, if it exists. -/
  excluded : Option Location

namespace Walk

/-- An extension as it is compared: without dots before it, in small letters. -/
def plainExtension (extension : String) : String :=
  Text.asciiLower (String.ofList (extension.toList.dropWhile (· == '.')))

/-- The walk for the settings of a batch. Malformed patterns are passed over. -/
def of (settings : BatchSettings) (root : Path) (excluded : Option Location) : Walk where
  root := root
  extensions := settings.extensions.map plainExtension
  skipped := settings.skipped
  patterns := settings.ignored.filterMap Glob.ofSetting?
  excluded := excluded

/-! ## Rules of ignore files -/

/-- The rules of a directory. -/
def levelOf (location : Location) (entries : List (String × FileTree)) : IgnoreLevel where
  base := location
  rules :=
    match entries.lookup ignoreFileName with
    | some (.file (.text text)) => IgnoreRule.ofText text
    | _ => []

/-- The rules of the directories above a location, the nearest first. -/
def levelsAbove (tree : FileTree) (location : Location) : List IgnoreLevel :=
  (List.range location.length).reverse.filterMap fun depth =>
    match tree.find? (location.take depth) with
    | some (.directory entries) => some (levelOf (location.take depth) entries)
    | _ => none

/-- A location as seen from a directory above it. -/
def locationText (base location : Location) : List Char :=
  Path.joinNames ((location.drop base.length).map String.toList)

/-- The rules of the nearest directory that say anything about a location ignore it. -/
def isIgnored (levels : List IgnoreLevel) (location : Location) (isDirectory : Bool) : Bool :=
  (levels.findSome? fun level =>
    IgnoreRule.verdict? level.rules (locationText level.base location) isDirectory).getD false

/-! ## The walk -/

/-- A directory is entered. -/
def enters (walk : Walk) (location : Location) (name : String) : Bool :=
  ! walk.skipped.contains name && walk.excluded != some location

/-- A file has one of the wanted extensions. -/
def hasExtension (walk : Walk) (path : Path) : Bool :=
  match path.extension? with
  | some extension => walk.extensions.contains (Text.asciiLower extension)
  | none => false

/-- A pattern of the settings matches a file, from the root of the batch on or as a whole. -/
def isExcepted (walk : Walk) (path : Path) : Bool :=
  let relative := (walk.root.below? path).getD path
  walk.patterns.any fun pattern =>
    pattern.matchesChars relative.text.toList || pattern.matchesChars path.text.toList

/-- A file belongs to the batch, as far as its path tells. -/
def wants (walk : Walk) (path : Path) : Bool :=
  walk.hasExtension path && ! walk.isExcepted path

/-- An entry of a directory is entered, or belongs to the batch. -/
def admits (walk : Walk) (levels : List IgnoreLevel) (location : Location) (name : String)
    (path : Path) (isDirectory : Bool) : Bool :=
  ! isIgnored levels location isDirectory &&
    (if isDirectory then walk.enters location name else walk.wants path)

mutual

/-- The files of a tree that has been admitted. -/
def visit (walk : Walk) (levels : List IgnoreLevel) (location : Location) (path : Path) :
    FileTree → List Path
  | .file _ => [path]
  | .directory entries =>
      visitEntries walk (levelOf location entries :: levels) location path entries

/-- The files of the entries of a directory. -/
def visitEntries (walk : Walk) (levels : List IgnoreLevel) (location : Location) (path : Path) :
    List (String × FileTree) → List Path
  | [] => []
  | (name, child) :: rest =>
      let childLocation := location ++ [name]
      let childPath := path.join ⟨name⟩
      (if walk.admits levels childLocation name childPath child.isDirectory then
        visit walk levels childLocation childPath child
      else []) ++ visitEntries walk levels location path rest

end

end Walk

/-- The files of a batch in the order of their paths; none if the root is no directory. -/
def FileTree.batchFiles? (tree : FileTree) (settings : BatchSettings) (root outputRoot : Path) :
    Option (List Path) :=
  match tree.get root, tree.follow root with
  | .ok (.directory entries), .ok location =>
      let excluded := tree.directoryLocation? outputRoot
      let walk := Walk.of settings root excluded
      let files := walk.visit (Walk.levelsAbove tree location) location root (.directory entries)
      some (files.mergeSort Path.le)
  | _, _ => none

end Hookify
