import Hookify.Files.Tree

namespace Hookify
namespace FileTree

/-!
# Changes

What has to be done to the files of one tree so that they become those of
another one.  Commands add and overwrite, so nothing is ever taken away.
-/

/-- Something that has changed: a directory is new, or a file is new or holds something else. -/
inductive Change where
  | directory (location : Location)
  | file (location : Location) (contents : Contents)
  deriving Repr, DecidableEq

mutual

/-- All that is in a tree that lies at a location, a directory before what it holds. -/
def allFrom (location : Location) : FileTree → List Change
  | .file contents => [.file location contents]
  | .directory entries => .directory location :: allOfEntries location entries

/-- All that is in the entries of a directory. -/
def allOfEntries (location : Location) : List (String × FileTree) → List Change
  | [] => []
  | (name, child) :: rest =>
      allFrom (location ++ [name]) child ++ allOfEntries location rest

end

/-- There is something else in a tree, or nothing, where a change puts a directory or a file. -/
def Change.isNew (tree : FileTree) : Change → Bool
  | .directory location =>
      match tree.find? location with
      | some (.directory _) => false
      | _ => true
  | .file location contents =>
      match tree.find? location with
      | some (.file old) => old != contents
      | _ => true

/-- What is to be done to a tree so that it becomes another one. A directory comes before what is
put into it. -/
def changesTo (before after : FileTree) : List Change :=
  (after.allFrom []).filter (·.isNew before)

end FileTree
end Hookify
