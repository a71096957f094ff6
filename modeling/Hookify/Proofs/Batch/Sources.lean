import Hookify.CommandLine.Run
import Hookify.Proofs.Batch.Outputs

namespace Hookify

/-!
# Sources

A source is kept unless something is written to its place.  For a single file
this is so exactly if it has the extension of components already, apart from a
stylesheet of its own name that it loads.  All that a batch writes is below its
output directory, so it keeps every file that is not below it; and files that
are below it are found only if the root is there as well.
-/

open FileAction Hookify.Path

/-! ## A single file -/

section Single

variable {input : Path} {settings : Settings} {session : Session} {source : Location}
  {contents : Contents}

/-- The component of a file is written to the place of the file exactly if the file has the
extension of components. -/
theorem defaultOutput_place?_iff {extension : String} (no_slash : '/' ∉ extension.toList)
    (followed : session.tree.follow input = .ok source)
    (held : session.tree.entryAt? source = some (.file contents)) :
    (defaultOutput input extension).place? = some source ↔
      input.extension? = if extension.isEmpty then none else some extension := by
  rcases segments_of_file followed held with ⟨before, last, parent, named, plain, leads, rfl⟩
  have segments := withExtension_segments named plain no_slash
  rw [extension?_eq named plain, defaultOutput, place?_child_iff segments leads plain]
  by_cases none : extension.isEmpty = true
  · rw [if_pos none, if_pos none, List.append_nil]
    rcases splitName_spec last.toList with whole | ⟨stem, ending, whole, -, -, split⟩
    · rw [whole]
      exact ⟨fun _ => rfl, fun _ => rfl⟩
    · rw [split, whole]
      exact ⟨fun same => by simp at same, nofun⟩
  · rw [if_neg none, if_neg none]
    rcases splitName_spec last.toList with whole | ⟨stem, ending, whole, -, -, split⟩
    · rw [whole]
      exact ⟨fun same => by simp at same, nofun⟩
    · rw [split, whole, List.append_cancel_left_eq, List.cons.injEq, Option.map_some,
        Option.some_inj, eq_comm, ← String.toList_inj, String.toList_ofList]
      exact ⟨fun same => same.2.symm, fun same => ⟨rfl, same.symm⟩⟩

theorem stylesheetName_isName (source : Path) {extension : String}
    (no_slash : '/' ∉ extension.toList) : IsName (stylesheetName source extension) := by
  have stemFree : '/' ∉ (source.stem?.getD "component").toList := by
    rw [stem?]
    cases known : source.fileName? with
    | none => decide
    | some name =>
        rw [Option.map_some, Option.getD_some, String.toList_ofList]
        exact fun slash => (isName_of_fileName? known).2 (mem_of_mem_stem slash)
  have long : 8 ≤ (stylesheetName source extension).toList.length := by
    have middle : ".styles.".toList.length = 8 := rfl
    rw [stylesheetName, String.toList_append, String.toList_append, List.length_append,
      List.length_append, middle]
    omega
  refine ⟨⟨?_, ?_, ?_⟩, ?_⟩
  · intro same
    rw [same] at long
    cases long
  · intro same
    rw [same] at long
    exact absurd long (by decide)
  · intro same
    rw [same] at long
    exact absurd long (by decide)
  · rw [stylesheetName, String.toList_append, String.toList_append, List.mem_append,
      List.mem_append, not_or, not_or]
    exact ⟨⟨stemFree, by decide⟩, no_slash⟩

/-- A stylesheet does not have the name of the file that it is for. -/
theorem stylesheet_place?_ne (no_slash : '/' ∉ settings.output.stylesheetExtension.toList)
    (followed : session.tree.follow input = .ok source)
    (held : session.tree.entryAt? source = some (.file contents)) (output : Path) :
    (sheetPath settings input output).place? ≠ some source := by
  intro leadsThere
  rcases segments_of_file followed held with ⟨before, last, parent, named, plain, -, rfl⟩
  have isName := stylesheetName_isName input no_slash
  rcases output.withFileName_names isName.2 with ⟨front, segments⟩
  rcases place?_getLast? segments isName.1 leadsThere with ⟨other, same⟩
  have isLast := (List.append_singleton_inj.mp same).2
  rw [← String.toList_inj, stylesheetName, stem?_eq named plain] at isLast
  simp only [Option.getD_some, String.toList_append, String.toList_ofList] at isLast
  rcases splitName_spec last.toList with whole | ⟨stem, ending, whole, -, noDot, split⟩
  · rw [whole] at isLast
    simp at isLast
  · rw [split, whole, List.append_assoc, List.append_cancel_left_eq] at isLast
    refine noDot ?_
    rw [(List.cons.inj isLast).2]
    exact List.mem_append_left _ (by decide)

/-- A file that is converted by itself is kept unless its component, its stylesheet or a copy is
written to its place. -/
theorem convert_keeps (settings : Settings) (input : Path) (session : Session)
    (source : Location) :
    let output := defaultOutput input settings.output.extension
    let root := CommandLine.resourceRoot output
    Kept session.process session.tree
        (CommandLine.runConvert settings input none session).2.tree source ∨
      output.place? = some source ∨ (sheetPath settings input output).place? = some source ∨
      ∃ copy ∈ plannedCopies settings input output root session,
        copy.destination.place? = some source := by
  intro output root
  have same : (CommandLine.runConvert settings input none session).2 =
      after (convertFile settings input output root) session := by
    rw [CommandLine.runConvert, after, Option.getD_none]
    cases (convertFile settings input output root).run session <;> rfl
  rcases convertFile_written settings input output root session with
    ⟨-, writes, region, targets, written⟩
  rw [same]
  rcases targets.lookup_cases source with untouched | ⟨path, isTarget, leads⟩
  · exact Or.inl (Kept.of_written written untouched)
  · rcases List.mem_append.mp isTarget with isOwn | isCopy
    · rcases List.mem_cons.mp isOwn with rfl | isSheet
      · exact Or.inr (Or.inl leads)
      · exact Or.inr (Or.inr (Or.inl (List.mem_singleton.mp isSheet ▸ leads)))
    · rcases List.mem_map.mp isCopy with ⟨copy, isPlanned, rfl⟩
      exact Or.inr (Or.inr (Or.inr ⟨copy, isPlanned, leads⟩))

end Single

namespace Batch

variable {batch : Batch} {session done : Session} {files : List Path} {summary : Summary}
  {base place : Location}

/-! ## Everything that a batch writes is below its output directory -/

/-- A place below a directory. -/
def Below (base place : Location) : Prop :=
  ∃ names, names ≠ [] ∧ place = base ++ names

theorem below_of_descend {root : Path} {names : List String} {last : String}
    (isBase : root.base? = some base) (areNames : ∀ name ∈ names ++ [last], IsName name)
    (leads : (root.descend (names ++ [last])).place? = some place) : Below base place := by
  rcases base?_of_descend areNames leads with ⟨location, isBaseToo, rfl⟩
  rw [isBase, Option.some_inj] at isBaseToo
  exact ⟨names ++ [last], by simp, by rw [isBaseToo]⟩

/-- Components and stylesheets go below the output directory. -/
theorem target_below (wellNamed : session.tree.WellNamed)
    (isExtension : IsExtension batch.settings.output.extension)
    (no_slash : '/' ∉ batch.settings.output.stylesheetExtension.toList)
    (walked : batch.files? session.tree = some files) (isBase : batch.outputRoot.base? = some base)
    {file target : Path} (isFile : file ∈ files) (isTarget : target ∈ batch.targets file)
    (leads : target.place? = some place) : Below base place := by
  rcases mem_files wellNamed isExtension walked isFile with ⟨_, names, last, -, areNames, -, same⟩
  have areComponents := componentNames_areNames isExtension.1 isExtension.2 areNames
  rcases List.mem_cons.mp isTarget with rfl | isSheet
  · rw [same] at leads
    exact below_of_descend isBase areComponents leads
  · have isLast := areComponents _ (List.mem_append_right _ (List.mem_singleton_self _))
    have segments := descend_segments batch.outputRoot areComponents
    rcases base?_eq_some.mp isBase with ⟨relative, leadsFront⟩
    rw [← same, relative] at segments
    rw [List.mem_singleton.mp isSheet, sheet, sheetPath,
      withFileName_place? segments isLast.1 (stylesheetName_isName file no_slash),
      placeFrom?_append, leadsFront, Option.bind_some,
      placeFrom?_names base fun name inside => areNames name (List.mem_append_left _ inside),
      Option.map_some, Option.some_inj, List.append_assoc] at leads
    exact ⟨_, by simp, leads.symm⟩

theorem destination?_descend {resource : Resource} {root destination : Path}
    (goes : resource.destination? root = some destination) :
    ∃ names last, (∀ name ∈ names ++ [last], IsName name) ∧
      destination = root.descend (names ++ [last]) := by
  rcases Option.map_eq_some_iff.mp goes with ⟨last, isLast, same⟩
  have isName := isName_of_fileName? isLast
  cases kind : resource.kind with
  | stylesheet =>
      rw [kind] at same
      exact ⟨[], last, List.forall_mem_singleton.mpr isName, same.symm⟩
  | script =>
      rw [kind] at same
      refine ⟨["utils"], last, ?_, same.symm⟩
      exact List.forall_mem_cons.mpr ⟨by decide +kernel, List.forall_mem_singleton.mpr isName⟩

/-- Copies go below the output directory. -/
theorem copied_below (isBase : batch.outputRoot.base? = some base)
    (ran : batch.run? session = some (summary, done)) {copied : Path}
    (isCopied : copied ∈ summary.resources.copied) (leads : copied.place? = some place) :
    Below base place := by
  rcases run?_eq_some ran with ⟨files, -, -, resources, -⟩
  rw [resources] at isCopied
  rcases List.mem_map.mp (copied_subset _ _ isCopied) with ⟨copy, isPlanned, rfl⟩
  rcases convertAll_copies batch files session copy (CopyPlan.planned_of _ isPlanned) with
    ⟨resource, -, goes⟩
  rcases destination?_descend goes with ⟨names, last, areNames, isDestination⟩
  rw [isDestination] at leads
  exact below_of_descend isBase areNames leads

/-! ## The files of a batch -/

/-- The output directory of a batch is neither its root nor above it, and known from the start if it
is there. -/
structure Apart (batch : Batch) (tree : FileTree) (location base : Location) : Prop where
  isRoot : batch.root.place? = some location
  isBase : batch.outputRoot.base? = some base
  notAbove : ¬ base <+: location
  known : (∃ place, tree.follow batch.outputRoot = .ok place) ∨ tree.entryAt? base = none

/-- No file of a batch is below the output directory. -/
theorem Apart.not_below {location : Location} (apart : batch.Apart session.tree location base)
    (wellNamed : session.tree.WellNamed) (walked : batch.files? session.tree = some files)
    {file : Path} (isFile : file ∈ files) (leads : file.place? = some place) :
    ¬ Below base place := by
  rintro ⟨below, some_name, rfl⟩
  rcases FileTree.mem_batchFiles? wellNamed walked isFile with
    ⟨root, names, last, contents, followed, areNames, rfl, held, excluded⟩
  have isRoot := (FileTree.follow_eq_ok.mp followed).1
  rw [apart.isRoot, Option.some_inj] at isRoot
  subst isRoot
  rw [descend_place? (base?_of_place? apart.isRoot).1 areNames, Option.some_inj] at leads
  have isAbove : base <+: location ++ (names ++ [last]) := ⟨below, leads.symm⟩
  have isDirectory : session.tree.entryAt? base = some .directory := by
    refine FileTree.directory_above isAbove ?_ (by rw [held]; exact nofun)
    rintro rfl
    exact some_name (List.self_eq_append_right.mp leads)
  rcases apart.known with ⟨known, followed⟩ | nothing
  · have isBase := (base?_of_place? (FileTree.follow_eq_ok.mp followed).1).1
    rw [apart.isBase, Option.some_inj] at isBase
    subst isBase
    refine excluded base (FileTree.directoryLocation?_eq_some.mpr ⟨followed, isDirectory⟩) ?_ ?_
      isAbove
    · rcases List.prefix_or_prefix_of_prefix isAbove (List.prefix_append _ _) with above | below
      · exact absurd above apart.notAbove
      · exact below
    · rintro rfl
      exact apart.notAbove (List.prefix_refl _)
  · rw [nothing] at isDirectory
    cases isDirectory

/-- A file of a batch is kept unless a component, a stylesheet or a copy is written to its
place. -/
theorem run?_keeps (walked : batch.files? session.tree = some files)
    (ran : batch.run? session = some (summary, done)) (source : Location) :
    Kept session.process session.tree done.tree source ∨
      (∃ writer ∈ files, ∃ target ∈ batch.targets writer, target.place? = some source) ∨
      ∃ copied ∈ summary.resources.copied, copied.place? = some source := by
  rcases run?_eq_some ran with ⟨_, walkedToo, -, resources, rfl⟩
  rw [walked, Option.some_inj] at walkedToo
  subst walkedToo
  rcases convertAll_written batch files session with ⟨process, writes, region, targets, written⟩
  have last := copyAll_written (CopyPlan.of ((batch.convertAll files session).1.flatMap (·.2)))
    (batch.convertAll files session).2
  rcases last with ⟨-, copies, further, copied, writtenLater⟩
  rw [process] at writtenLater
  rcases copied.lookup_cases source with noCopy | isCopied
  swap
  · rw [← resources] at isCopied
    exact Or.inr (Or.inr isCopied)
  rcases targets.lookup_cases source with noTarget | ⟨target, isTarget, leads⟩
  swap
  · rcases List.mem_flatMap.mp isTarget with ⟨writer, isWriter, isTarget⟩
    exact Or.inr (Or.inl ⟨writer, isWriter, target, isTarget, leads⟩)
  refine Or.inl (Kept.of_written (written.append writtenLater) ?_)
  rw [List.lookup_append, noCopy, noTarget]
  rfl

end Batch

/-- A script, and a file with the extension of components. -/
def scriptAndComponent : Session :=
  let file := FileTree.file (.text Batch.scriptText)
  ⟨.directory [("app.js", file), ("app.jsx", file)], 0, 0⟩

end Hookify
