import Hookify.Files.Tree
import Mathlib.Logic.Function.Basic

namespace Hookify
namespace FileTree

/-!
# What is where in a file tree

A tree is seen through one question: what is at a location, a file with its
contents or a directory.  What a directory holds is not part of the answer,
since each of its entries has a location of its own.

To put a file or an empty directory into a directory, and to take a file away,
changes the answer for that one location and for no other.
-/

/-- What can be at a location. -/
inductive Entry where
  | file (contents : Contents)
  | directory
  deriving Repr, DecidableEq

/-- A tree as what is at its own location. -/
def entry : FileTree → Entry
  | .file contents => .file contents
  | .directory _ => .directory

/-- What is at a location. -/
def entryAt? (tree : FileTree) (location : Location) : Option Entry :=
  (tree.find? location).map entry

/-- What the file at a location holds, if there is one. -/
def contents? (tree : FileTree) (location : Location) : Option Contents :=
  match tree.entryAt? location with
  | some (.file contents) => some contents
  | _ => none

variable {tree : FileTree} {location : Location} {name : String}

@[simp] theorem entryAt?_nil (tree : FileTree) : tree.entryAt? [] = some tree.entry := by
  cases tree <;> rfl

theorem entryAt?_file_cons (contents : Contents) :
    (FileTree.file contents).entryAt? (name :: location) = none :=
  rfl

theorem entryAt?_directory_cons (entries : List (String × FileTree)) :
    (FileTree.directory entries).entryAt? (name :: location) =
      (entries.lookup name).bind (·.entryAt? location) := by
  rw [entryAt?, find?]
  cases entries.lookup name <;> rfl

theorem find?_eq_file {contents : Contents} :
    tree.find? location = some (.file contents) ↔
      tree.entryAt? location = some (.file contents) := by
  rw [entryAt?]
  rcases tree.find? location with _ | other | _ <;> simp [entry]

theorem contents?_eq_some {contents : Contents} :
    tree.contents? location = some contents ↔ tree.entryAt? location = some (.file contents) := by
  rw [contents?]
  rcases tree.entryAt? location with _ | ⟨other⟩ | _
  · exact ⟨nofun, nofun⟩
  · exact ⟨fun same => by rw [Option.some.inj same], fun same => by
      rw [Entry.file.inj (Option.some.inj same)]⟩
  · exact ⟨nofun, nofun⟩

/-- There is nothing below anything but a directory. -/
theorem entryAt?_append_cons (first rest : Location)
    (below : tree.entryAt? (first ++ name :: rest) ≠ none) :
    tree.entryAt? first = some .directory := by
  induction first generalizing tree with
  | nil =>
      cases tree with
      | file contents => exact absurd rfl below
      | directory entries => rfl
  | cons step first ih =>
      cases tree with
      | file contents => exact absurd rfl below
      | directory entries =>
          rw [List.cons_append, entryAt?_directory_cons] at below
          rw [entryAt?_directory_cons]
          cases found : entries.lookup step with
          | none =>
              rw [found] at below
              exact absurd rfl below
          | some child =>
              rw [found] at below
              exact ih below

/-- Whatever is above something is a directory. -/
theorem directory_above {above : Location} (isAbove : above <+: location)
    (different : above ≠ location) (held : tree.entryAt? location ≠ none) :
    tree.entryAt? above = some .directory := by
  rcases isAbove with ⟨rest, rfl⟩
  cases rest with
  | nil => exact absurd (List.append_nil above).symm different
  | cons name rest => exact entryAt?_append_cons above rest held

theorem entryAt?_below (free : tree.entryAt? location ≠ some .directory) (step : String)
    (rest : Location) : tree.entryAt? (location ++ step :: rest) = none := by
  by_contra held
  exact free (entryAt?_append_cons location rest held)

/-! ## Entries of a directory -/

theorem lookup_cons_eq (known : String) (child : FileTree) (other : String)
    (entries : List (String × FileTree)) :
    ((known, child) :: entries).lookup other =
      if other = known then some child else entries.lookup other := by
  rw [List.lookup_cons]
  by_cases asked : other = known
  · rw [if_pos asked, beq_iff_eq.mpr asked]
  · rw [if_neg asked, beq_eq_false_iff_ne.mpr asked]

theorem lookup_setEntry (child : FileTree) (other : String) (entries : List (String × FileTree)) :
    (setEntry name child entries).lookup other =
      if other = name then some child else entries.lookup other := by
  induction entries with
  | nil => rw [setEntry, lookup_cons_eq]
  | cons first entries ih =>
      rcases first with ⟨known, old⟩
      rw [setEntry, lookup_cons_eq]
      by_cases same : known = name
      · rw [if_pos (beq_iff_eq.mpr same), lookup_cons_eq, same]
        by_cases asked : other = name
        · rw [if_pos asked, if_pos asked]
        · rw [if_neg asked, if_neg asked, if_neg asked]
      · rw [if_neg (mt beq_iff_eq.mp same), lookup_cons_eq, ih]
        by_cases asked : other = known
        · rw [if_pos asked, if_pos asked, if_neg fun isName => same (asked.symm.trans isName)]
        · rw [if_neg asked, if_neg asked]

theorem lookup_filter_ne (other : String) (entries : List (String × FileTree)) :
    (entries.filter (·.1 != name)).lookup other =
      if other = name then none else entries.lookup other := by
  induction entries with
  | nil => exact (ite_self _).symm
  | cons first entries ih =>
      rcases first with ⟨known, child⟩
      rw [lookup_cons_eq]
      by_cases same : known = name
      · rw [List.filter_cons_of_neg (by simpa using same), ih, same]
        by_cases asked : other = name
        · rw [if_pos asked, if_pos asked]
        · rw [if_neg asked, if_neg asked, if_neg asked]
      · rw [List.filter_cons_of_pos (by simpa using same), lookup_cons_eq, ih]
        by_cases asked : other = known
        · rw [if_pos asked, if_pos asked, if_neg fun isName => same (asked.symm.trans isName)]
        · rw [if_neg asked, if_neg asked]

/-! ## Changes at one location -/

/-- A tree with nothing in it. -/
def IsLeaf (node : FileTree) : Prop :=
  ∀ step rest, node.entryAt? (step :: rest) = none

theorem isLeaf_file (contents : Contents) : (FileTree.file contents).IsLeaf :=
  fun _ _ => rfl

theorem isLeaf_empty : (FileTree.directory []).IsLeaf :=
  fun _ _ => rfl

/-- The answers of a directory in which one entry has changed. -/
theorem entryAt?_directory_update {entries changed : List (String × FileTree)} {parent : Location}
    {first : String} {answer : Option Entry}
    (others : ∀ step, step ≠ first → changed.lookup step = entries.lookup step)
    (same : ∀ rest, (changed.lookup first).bind (·.entryAt? rest) =
      Function.update (fun rest => (entries.lookup first).bind (·.entryAt? rest)) parent answer
        rest) :
    (FileTree.directory changed).entryAt? =
      Function.update (FileTree.directory entries).entryAt? (first :: parent) answer := by
  funext asked
  cases asked with
  | nil => rw [Function.update_of_ne (List.cons_ne_nil _ _).symm, entryAt?_nil, entryAt?_nil]; rfl
  | cons step rest =>
      rw [entryAt?_directory_cons]
      by_cases isFirst : step = first
      · subst isFirst
        rw [same]
        by_cases here : rest = parent
        · rw [here, Function.update_self, Function.update_self]
        · rw [Function.update_of_ne here,
            Function.update_of_ne fun whole => here (List.cons.inj whole).2,
            entryAt?_directory_cons]
      · rw [Function.update_of_ne fun whole => isFirst (List.cons.inj whole).1, others step isFirst,
          entryAt?_directory_cons]

/-- A file, or an empty directory, is put into a directory. -/
theorem entryAt?_put {node : FileTree} (leaf : node.IsLeaf) {parent : Location}
    (enters : tree.entryAt? parent = some .directory)
    (free : tree.entryAt? (parent ++ [name]) ≠ some .directory) :
    (put node (parent ++ [name]) tree).entryAt? =
      Function.update tree.entryAt? (parent ++ [name]) (some node.entry) := by
  induction parent generalizing tree with
  | nil =>
      cases tree with
      | file contents => cases enters
      | directory entries =>
          refine entryAt?_directory_update (fun step other => ?_) fun rest => ?_
          · rw [lookup_setEntry, if_neg other]
          · rw [lookup_setEntry, if_pos rfl, put, Option.bind_some]
            cases rest with
            | nil => rw [Function.update_self, entryAt?_nil]
            | cons step rest =>
                rw [Function.update_of_ne (List.cons_ne_nil _ _), leaf]
                have nothing := entryAt?_below free step rest
                rw [List.nil_append, List.singleton_append, entryAt?_directory_cons] at nothing
                exact nothing.symm
  | cons first parent ih =>
      cases tree with
      | file contents => cases enters
      | directory entries =>
          rw [List.cons_append, entryAt?_directory_cons] at free
          rw [entryAt?_directory_cons] at enters
          cases found : entries.lookup first with
          | none =>
              rw [found] at enters
              cases enters
          | some child =>
              rw [found, Option.bind_some] at enters free
              rw [List.cons_append, put, found, Option.getD_some]
              refine entryAt?_directory_update (fun step other => ?_) fun rest => ?_
              · rw [lookup_setEntry, if_neg other]
              · rw [lookup_setEntry, if_pos rfl, found, Option.bind_some, ih enters free]
                rfl

/-- A file is taken away. -/
theorem entryAt?_erase {parent : Location} (enters : tree.entryAt? parent = some .directory)
    (free : tree.entryAt? (parent ++ [name]) ≠ some .directory) :
    (erase (parent ++ [name]) tree).entryAt? =
      Function.update tree.entryAt? (parent ++ [name]) none := by
  induction parent generalizing tree with
  | nil =>
      cases tree with
      | file contents => cases enters
      | directory entries =>
          refine entryAt?_directory_update (fun step other => ?_) fun rest => ?_
          · rw [lookup_filter_ne, if_neg other]
          · rw [lookup_filter_ne, if_pos rfl, Option.bind_none]
            cases rest with
            | nil => rw [Function.update_self]
            | cons step rest =>
                rw [Function.update_of_ne (List.cons_ne_nil _ _)]
                have nothing := entryAt?_below free step rest
                rw [List.nil_append, List.singleton_append, entryAt?_directory_cons] at nothing
                exact nothing.symm
  | cons first parent ih =>
      cases tree with
      | file contents => cases enters
      | directory entries =>
          rw [List.cons_append, entryAt?_directory_cons] at free
          rw [entryAt?_directory_cons] at enters
          cases found : entries.lookup first with
          | none =>
              rw [found] at enters
              cases enters
          | some child =>
              rw [found, Option.bind_some] at enters free
              rw [List.cons_append, erase, if_neg (by simp), found]
              refine entryAt?_directory_update (fun step other => ?_) fun rest => ?_
              · rw [lookup_setEntry, if_neg other]
              · rw [lookup_setEntry, if_pos rfl, found, Option.bind_some, ih enters free]
                rfl

end FileTree
end Hookify
