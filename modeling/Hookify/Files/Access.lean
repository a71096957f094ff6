import Hookify.Files.Tree

namespace Hookify

/-!
# Reading and writing files

An action reads and changes the file tree, and stops at the first failure; what
it has written before stays.  A file is written under a temporary name first
and then renamed, so it either holds all that was to be written, or what it
held before.
-/

/-- A failure with the path it is about. -/
structure FileFailure where
  path : Path
  error : FileError
  deriving Repr, DecidableEq

/-- The failure in words. -/
def FileFailure.message (failure : FileFailure) : String :=
  "I/O error on " ++ failure.path.text ++ ": " ++ failure.error.text

/-- The file tree and the process that changes it. -/
structure Session where
  tree : FileTree
  /-- The number of the process, which no other process has at the same time. -/
  process : Nat
  /-- How many temporary names the process has made. -/
  named : Nat
  deriving Repr

/-- An action on the file tree. -/
abbrev FileAction := EStateM FileFailure Session

/-- The name under which a file of the given name is written at first. -/
def temporaryName (process number : Nat) (name : String) : String :=
  "." ++ name ++ "." ++ toString process ++ "." ++ toString number ++ ".tmp"

namespace FileAction

/-- Fail about a path if a look at the tree fails. -/
def check {Result : Type} (path : Path) (look : FileTree → Except FileError Result) :
    FileAction Result := fun session =>
  match look session.tree with
  | .ok result => .ok result session
  | .error error => .error ⟨path, error⟩ session

/-- Change the tree. -/
def change (edit : FileTree → FileTree) : FileAction Unit :=
  modify fun session => { session with tree := edit session.tree }

/-- The contents of a file. -/
def read (path : Path) : FileAction Contents := do
  match <- check path (·.get path) with
  | .file contents => pure contents
  | .directory _ => throw ⟨path, .isDirectory⟩

/-- The text of a file. -/
def readText (path : Path) : FileAction String := do
  match <- read path with
  | .text text => pure text
  | .binary _ => throw ⟨path, .notText⟩

/-- Make sure that there is something at a path; if not, make it a directory. -/
def ensureDirectory (path : Path) : FileAction Unit := do
  let session <- get
  unless session.tree.holds path do
    if path.isAbsolute then throw ⟨path, .missing⟩
    let (failure, tree) := FileTree.createFrom false [] path.segments.names session.tree
    set { session with tree := tree }
    match failure with
    | some error => throw ⟨path, error⟩
    | none => pure ()

/-- The path next to a given one under which a file is written at first.  The number in it is used
only once. -/
def temporary (path : Path) : FileAction Path :=
  modifyGet fun session =>
    let name := temporaryName session.process session.named (path.fileName?.getD "")
    (path.withFileName name, { session with named := session.named + 1 })

/-- Put contents into a file, in the place of what it held if there is one already. -/
def fill (path : Path) (contents : Contents) : FileAction Unit := do
  let location <- check path (·.locationForFile path)
  change (FileTree.put (.file contents) location)

/-- Give a file another path, in the place of the file that is there. -/
def rename (source target : Path) : FileAction Unit := do
  let old <- check target (·.locationForFile source)
  let new <- check target (·.locationForFile target)
  match (<- get).tree.find? old with
  | some node => change fun tree => FileTree.put node new (tree.erase old)
  | none => throw ⟨target, .missing⟩

/-- Take a file away if there is one. -/
def discard (path : Path) : FileAction Unit := do
  match (<- get).tree.locationForFile path with
  | .ok location => change (FileTree.erase location)
  | .error _ => pure ()

/-- Write a file, in the place of an old one if there is one.  Directories on the way are added.  If
that fails, nothing is left under the temporary name. -/
def write (path : Path) (contents : Contents) : FileAction Unit := do
  match path.parent? with
  | some parent => unless parent.text.isEmpty do ensureDirectory parent
  | none => pure ()
  let temporary <- temporary path
  try
    fill temporary contents
    rename temporary path
  catch failure =>
    discard temporary
    throw failure

/-- Copy a file. -/
def copy (source destination : Path) : FileAction Unit := do
  write destination (<- read source)

end FileAction
end Hookify
