import Hookify.Batch.Walk
import Hookify.Proofs.Files.Below

namespace Hookify

/-!
# The files that a walk finds

Every file of a batch is reached from the root by names, and no directory on the
way is the one that the batch writes to.  Names in a tree are proper names, and
the entries of a directory have different ones: so has every tree of files, and
it is what makes a path lead to the file that it was made for.
-/

/-- The names in a tree are proper, and different within each directory. -/
inductive FileTree.WellNamed : FileTree → Prop where
  | file (contents : Contents) : WellNamed (.file contents)
  | directory (entries : List (String × FileTree))
      (different : (entries.map (·.1)).Nodup)
      (proper : ∀ entry ∈ entries, Path.IsName entry.1)
      (below : ∀ entry ∈ entries, WellNamed entry.2) : WellNamed (.directory entries)

namespace Walk

variable {walk : Walk} {levels : List IgnoreLevel} {location : Location} {path file : Path}

theorem lookup_of_mem {name : String} {child : FileTree} {entries : List (String × FileTree)}
    (different : (entries.map (·.1)).Nodup) (inside : (name, child) ∈ entries) :
    entries.lookup name = some child := by
  induction entries with
  | nil => cases inside
  | cons first entries ih =>
      rcases first with ⟨known, other⟩
      rw [List.map_cons, List.nodup_cons] at different
      rw [FileTree.lookup_cons_eq]
      rcases List.mem_cons.mp inside with same | later
      · cases same
        exact if_pos rfl
      · rw [if_neg, ih different.2 later]
        rintro rfl
        exact different.1 (List.mem_map.mpr ⟨(name, child), later, rfl⟩)

theorem mem_of_lookup {name : String} {child : FileTree} {entries : List (String × FileTree)}
    (held : entries.lookup name = some child) : (name, child) ∈ entries := by
  induction entries with
  | nil => cases held
  | cons first entries ih =>
      rcases first with ⟨known, other⟩
      rw [FileTree.lookup_cons_eq] at held
      split at held
      case isTrue same =>
        cases held
        exact same ▸ List.mem_cons_self
      case isFalse => exact List.mem_cons_of_mem _ (ih held)

theorem mem_visitEntries {entries : List (String × FileTree)}
    (found : file ∈ walk.visitEntries levels location path entries) :
    ∃ name child, (name, child) ∈ entries ∧
      walk.admits levels (location ++ [name]) name (path.join ⟨name⟩) child.isDirectory = true ∧
      file ∈ walk.visit levels (location ++ [name]) (path.join ⟨name⟩) child := by
  induction entries with
  | nil =>
      rw [visitEntries] at found
      cases found
  | cons first entries ih =>
      rcases first with ⟨name, child⟩
      rw [visitEntries] at found
      rcases List.mem_append.mp found with here | later
      · split at here
        case isTrue admitted => exact ⟨name, child, List.mem_cons_self, admitted, here⟩
        case isFalse => cases here
      · rcases ih later with ⟨name, child, inside, rest⟩
        exact ⟨name, child, List.mem_cons_of_mem _ inside, rest⟩

/-- How a walk reaches a file: by names, past no directory that it does not enter. -/
structure Reaches (walk : Walk) (location : Location) (tree : FileTree) (names : List String) :
    Prop where
  areNames : ∀ name ∈ names, Path.IsName name
  isFile : ∃ contents, tree.entryAt? names = some (.file contents)
  enters : ∀ above below, names = above ++ below → above ≠ [] → below ≠ [] →
    walk.excluded ≠ some (location ++ above)

theorem Reaches.nil (walk : Walk) (location : Location) (contents : Contents) :
    walk.Reaches location (.file contents) [] where
  areNames := nofun
  isFile := ⟨contents, rfl⟩
  enters := by
    intro above below same some_name
    exact absurd (List.append_eq_nil_iff.mp same.symm).1 some_name

theorem Reaches.cons {name : String} {names : List String} {child : FileTree}
    {entries : List (String × FileTree)} (isName : Path.IsName name)
    (held : entries.lookup name = some child)
    (admitted : walk.admits levels (location ++ [name]) name path child.isDirectory = true)
    (reaches : walk.Reaches (location ++ [name]) child names) :
    walk.Reaches location (.directory entries) (name :: names) where
  areNames := List.forall_mem_cons.mpr ⟨isName, reaches.areNames⟩
  isFile := by
    rw [FileTree.entryAt?_directory_cons, held, Option.bind_some]
    exact reaches.isFile
  enters := by
    intro above below same some_above some_below
    rcases above with _ | ⟨first, above⟩
    · exact absurd rfl some_above
    rcases List.cons.inj same with ⟨rfl, rest⟩
    cases above with
    | nil =>
        -- The file is below the child, which therefore is a directory that has been entered.
        have isDirectory : child.isDirectory = true := by
          rcases reaches.isFile with ⟨contents, isFile⟩
          cases child with
          | directory entries => rfl
          | file other =>
              have whole : names = below := rest
              rcases List.exists_cons_of_ne_nil some_below with ⟨next, others, shape⟩
              rw [whole, shape, FileTree.entryAt?_file_cons] at isFile
              cases isFile
        rw [isDirectory, admits, Bool.and_eq_true, if_pos rfl, Walk.enters, Bool.and_eq_true]
          at admitted
        simpa using admitted.2.2
    | cons next above =>
        have deeper := reaches.enters (next :: above) below rest (List.cons_ne_nil _ _) some_below
        rwa [List.append_assoc] at deeper

theorem mem_visit {tree : FileTree} (wellNamed : tree.WellNamed)
    (found : file ∈ walk.visit levels location path tree) :
    ∃ names, file = path.descend names ∧ walk.Reaches location tree names := by
  induction wellNamed generalizing levels location path with
  | file contents =>
      rw [visit, List.mem_singleton] at found
      exact ⟨[], found, Reaches.nil walk location contents⟩
  | directory entries different proper below ih =>
      rw [visit] at found
      rcases mem_visitEntries found with ⟨name, child, inside, admitted, found⟩
      rcases ih (name, child) inside found with ⟨names, rfl, reaches⟩
      exact ⟨name :: names, rfl, Reaches.cons (proper (name, child) inside)
        (lookup_of_mem different inside) admitted reaches⟩

/-- Different entries of a directory are at different paths. -/
theorem nodup_visitEntries {entries : List (String × FileTree)}
    (different : (entries.map (·.1)).Nodup) (proper : ∀ entry ∈ entries, Path.IsName entry.1)
    (below : ∀ entry ∈ entries, entry.2.WellNamed)
    (once : ∀ entry ∈ entries, ∀ levels location path,
      (walk.visit levels location path entry.2).Nodup) :
    (walk.visitEntries levels location path entries).Nodup := by
  induction entries with
  | nil =>
      rw [visitEntries]
      exact List.nodup_nil
  | cons first entries ih =>
      rcases first with ⟨name, child⟩
      rw [List.map_cons, List.nodup_cons] at different
      rw [List.forall_mem_cons] at proper below once
      rw [visitEntries]
      refine List.nodup_append.mpr ⟨?_, ih different.2 proper.2 below.2 once.2, ?_⟩
      · split
        · exact once.1 _ _ _
        · exact List.nodup_nil
      · rintro file here _ there rfl
        split at here
        case isFalse => cases here
        rcases mem_visit below.1 here with ⟨names, isFile, reaches⟩
        rcases mem_visitEntries there with ⟨other, otherChild, inside, -, there⟩
        rcases mem_visit (below.2 _ inside) there with ⟨others, sameFile, reachesOther⟩
        have same : path.descend (name :: names) = path.descend (other :: others) :=
          isFile.symm.trans sameFile
        have names := Path.descend_inj (List.forall_mem_cons.mpr ⟨proper.1, reaches.areNames⟩)
          (List.forall_mem_cons.mpr ⟨proper.2 _ inside, reachesOther.areNames⟩) same
        refine different.1 (List.mem_map.mpr ⟨(other, otherChild), inside, ?_⟩)
        exact (List.cons.inj names).1.symm

theorem nodup_visit {tree : FileTree} (wellNamed : tree.WellNamed) :
    (walk.visit levels location path tree).Nodup := by
  induction wellNamed generalizing levels location path with
  | file contents =>
      rw [visit]
      exact List.pairwise_singleton _ path
  | directory entries different proper below ih =>
      rw [visit]
      exact nodup_visitEntries different proper below fun entry inside _ _ _ => ih entry inside

end Walk

namespace FileTree

variable {tree : FileTree} {settings : BatchSettings} {root outputRoot file : Path}
  {files : List Path}

theorem wellNamed_find? {location : Location} {found : FileTree} (wellNamed : tree.WellNamed)
    (held : tree.find? location = some found) : found.WellNamed := by
  induction location generalizing tree with
  | nil =>
      cases held
      exact wellNamed
  | cons name location ih =>
      cases wellNamed with
      | file contents => cases held
      | directory entries different proper below =>
          rw [find?] at held
          cases inside : entries.lookup name with
          | none =>
              rw [inside] at held
              cases held
          | some child =>
              rw [inside] at held
              exact ih (below (name, child) (Walk.mem_of_lookup inside)) held

theorem find?_append (first second : Location) :
    tree.find? (first ++ second) = (tree.find? first).bind (·.find? second) := by
  induction first generalizing tree with
  | nil => rfl
  | cons name first ih =>
      cases tree with
      | file contents => rfl
      | directory entries =>
          rw [List.cons_append, find?, find?]
          cases entries.lookup name with
          | none => rfl
          | some child => exact ih

/-- A file of a batch is below its root, and not below the directory that the batch writes to if
that is below the root. -/
theorem mem_batchFiles? (wellNamed : tree.WellNamed)
    (walked : tree.batchFiles? settings root outputRoot = some files) (isFile : file ∈ files) :
    ∃ location names last contents, tree.follow root = .ok location ∧
      (∀ name ∈ names ++ [last], Path.IsName name) ∧ file = root.descend (names ++ [last]) ∧
      tree.entryAt? (location ++ (names ++ [last])) = some (.file contents) ∧
      ∀ excluded, tree.directoryLocation? outputRoot = some excluded → location <+: excluded →
        location ≠ excluded → ¬ excluded <+: location ++ (names ++ [last]) := by
  rw [batchFiles?] at walked
  rcases got : tree.get root with error | contents | entries
  · rw [got] at walked
    cases walked
  · rw [got] at walked
    cases walked
  rcases get_eq_ok.mp got with ⟨location, followed, held⟩
  rw [got, followed, Option.some_inj] at walked
  rw [← walked, List.mem_mergeSort] at isFile
  rcases Walk.mem_visit (wellNamed_find? wellNamed held) isFile with ⟨reached, rfl, reaches⟩
  rcases reaches.isFile with ⟨contents, isFile⟩
  rcases List.eq_nil_or_concat reached with none | ⟨names, last, same⟩
  · rw [none] at isFile
    cases isFile
  rw [List.concat_eq_append] at same
  have inTree : tree.entryAt? (location ++ reached) = some (.file contents) := by
    rw [entryAt?, find?_append, held]
    exact isFile
  rw [same] at inTree reaches ⊢
  refine ⟨location, names, last, contents, followed, reaches.areNames, rfl, inTree, ?_⟩
  rintro _ isExcluded ⟨above, rfl⟩ different ⟨below, whole⟩
  rw [List.append_assoc, List.append_cancel_left_eq] at whole
  refine reaches.enters above below whole.symm ?_ ?_ isExcluded
  · rintro rfl
    exact different (List.append_nil location).symm
  · rintro rfl
    have held := (directoryLocation?_eq_some.mp isExcluded).2
    rw [← whole, List.append_nil] at inTree
    rw [inTree] at held
    cases held

/-- No file of a batch is found twice. -/
theorem nodup_batchFiles? (wellNamed : tree.WellNamed)
    (walked : tree.batchFiles? settings root outputRoot = some files) : files.Nodup := by
  rw [batchFiles?] at walked
  rcases got : tree.get root with error | contents | entries
  · rw [got] at walked
    cases walked
  · rw [got] at walked
    cases walked
  rcases get_eq_ok.mp got with ⟨location, followed, held⟩
  rw [got, followed, Option.some_inj] at walked
  rw [← walked, (List.mergeSort_perm _ _).nodup_iff]
  exact Walk.nodup_visit (wellNamed_find? wellNamed held)

/-- The files of a batch whose walk finds them in the order of their paths. -/
theorem batchFiles?_of_sorted {location : Location} {entries : List (String × FileTree)}
    (followed : tree.follow root = .ok location)
    (held : tree.find? location = some (.directory entries))
    (found : (Walk.of settings root (tree.directoryLocation? outputRoot)).visit
      (Walk.levelsAbove tree location) location root (.directory entries) = files)
    (sorted : files.Pairwise fun first second => first.le second = true) :
    tree.batchFiles? settings root outputRoot = some files := by
  rw [batchFiles?, get_eq_ok.mpr ⟨location, followed, held⟩, followed]
  dsimp only
  rw [found, List.mergeSort_of_pairwise sorted]

end FileTree
end Hookify
