import Hookify.Proofs.Batch.Walk
import Hookify.Proofs.Batch.Writes

namespace Hookify

/-!
# Components of a batch

The component of a file gets the name of the file with another extension.  So
two files have the same output exactly if they are in one directory and differ
at most in their extensions, and then the later one takes the place of the
earlier one, although both are told to have been converted.  Apart from that, and
from stylesheets and copies that go to the same place, the component of a file
that was converted is there in the end.
-/

namespace Path

/-- Two files of one directory differ at most in their extensions. -/
def Twins (first second : Path) : Prop :=
  first.parent? = second.parent? ∧ first.stem? = second.stem?

instance (first second : Path) : Decidable (first.Twins second) :=
  inferInstanceAs (Decidable (_ ∧ _))

variable {root : Path} {names others : List String} {last other : String}

theorem trimmed_concat (rooted : Bool) (before : List (List Char)) {last : List Char}
    (plain : IsPlain last) : trimmed rooted (before ++ [last]) = before ++ [last] := by
  rw [trimmed, List.reverse_append, List.reverse_singleton, List.singleton_append,
    dropSilent_plain rooted plain]
  simp

theorem trimmed_length_le (rooted : Bool) (before : List (List Char)) :
    (trimmed rooted before).length ≤ before.length := by
  rcases trimmed_spec rooted before with ⟨silent, split, -⟩
  have length := congrArg List.length split
  rw [List.length_append] at length
  omega

theorem trimmed_names (rooted : Bool) (front : List (List Char)) (filled : names ≠ [])
    (areNames : ∀ name ∈ names, IsName name) :
    trimmed rooted (front ++ names.map String.toList) = front ++ names.map String.toList := by
  rcases List.eq_nil_or_concat names with none | ⟨above, last, rfl⟩
  · exact absurd none filled
  · rw [List.concat_eq_append] at areNames ⊢
    have isName := areNames last (List.mem_append_right _ (List.mem_singleton_self _))
    rw [List.map_append, ← List.append_assoc]
    exact trimmed_concat rooted _ isName.1

theorem trimmed_ne_names (rooted : Bool) (front : List (List Char)) (filled : names ≠ [])
    (areNames : ∀ name ∈ names, IsName name) :
    trimmed rooted front ≠ trimmed rooted (front ++ names.map String.toList) := by
  intro same
  have shorter := trimmed_length_le rooted front
  have longer := List.length_pos_iff.mpr filled
  rw [same, trimmed_names rooted front filled areNames, List.length_append, List.length_map]
    at shorter
  omega

/-- Different directories below a root are told apart by what stays of their segments. -/
theorem trimmed_names_inj (rooted : Bool) (front : List (List Char))
    (areNames : ∀ name ∈ names, IsName name) (areOthers : ∀ name ∈ others, IsName name)
    (same : trimmed rooted (front ++ names.map String.toList) =
      trimmed rooted (front ++ others.map String.toList)) : names = others := by
  by_cases filled : names = []
  · by_cases othersFilled : others = []
    · rw [filled, othersFilled]
    · rw [filled, List.map_nil, List.append_nil] at same
      exact absurd same (trimmed_ne_names rooted front othersFilled areOthers)
  · by_cases othersFilled : others = []
    · rw [othersFilled, List.map_nil, List.append_nil] at same
      exact absurd same.symm (trimmed_ne_names rooted front filled areNames)
    · rw [trimmed_names rooted front filled areNames,
        trimmed_names rooted front othersFilled areOthers, List.append_cancel_left_eq] at same
      exact (List.map_inj_right fun _ _ => String.toList_inj.mp).mp same

theorem path_trimmed_inj {rooted : Bool} {first second : List (List Char)}
    (firstFree : ∀ name ∈ first, '/' ∉ name) (secondFree : ∀ name ∈ second, '/' ∉ name)
    (same : Segments.path ⟨rooted, trimmed rooted first⟩ =
      Segments.path ⟨rooted, trimmed rooted second⟩) :
    trimmed rooted first = trimmed rooted second := by
  have joined : joinNames (trimmed rooted first) = joinNames (trimmed rooted second) := by
    have chars := congrArg (fun path => path.text.toList) same
    cases rooted <;> simpa [Segments.path] using chars
  have free : ∀ names : List (List Char), (∀ name ∈ names, '/' ∉ name) →
      ∀ name ∈ trimmed rooted names, '/' ∉ name := by
    intro names namesFree name inside
    rcases trimmed_spec rooted names with ⟨silent, split, -⟩
    exact namesFree name (split ▸ List.mem_append_left _ inside)
  have back : ∀ names : List (List Char), (∀ name ∈ names, '/' ∉ name) →
      trimmed rooted names =
        if joinNames (trimmed rooted names) = [] then [] else
          (joinNames (trimmed rooted names)).splitOn '/' := by
    intro names namesFree
    by_cases none : trimmed rooted names = []
    · rw [none]
      rfl
    · have cut := splitOn_joinNames none (free names namesFree)
      rw [if_neg, cut]
      intro nothing
      rw [nothing] at cut
      exact trimmed_getLast?_ne_nil rooted names (cut ▸ rfl)
  rw [back first firstFree, back second secondFree, joined]

/-- Files below a root are twins if they are in one directory and have the same stem. -/
theorem twins_descend (areNames : ∀ name ∈ names ++ [last], IsName name)
    (areOthers : ∀ name ∈ others ++ [other], IsName name) :
    (root.descend (names ++ [last])).Twins (root.descend (others ++ [other])) ↔
      names = others ∧ (splitName last.toList).1 = (splitName other.toList).1 := by
  have isLast := areNames last (List.mem_append_right _ (List.mem_singleton_self _))
  have isOther := areOthers other (List.mem_append_right _ (List.mem_singleton_self _))
  have first := descend_segments root areNames
  have second := descend_segments root areOthers
  rw [Twins, parent?_eq first isLast.1, parent?_eq second isOther.1, stem?_eq first isLast.1,
    stem?_eq second isOther.1, Option.some_inj, Option.some_inj, String.ofList_inj]
  refine and_congr_left fun _ => ⟨fun same => ?_, fun same => by rw [same]⟩
  have firstSound := segments_sound (root.descend (names ++ [last]))
  have secondSound := segments_sound (root.descend (others ++ [other]))
  rw [first] at firstSound
  rw [second] at secondSound
  exact trimmed_names_inj _ _ (fun name inside => areNames name (List.mem_append_left _ inside))
    (fun name inside => areOthers name (List.mem_append_left _ inside))
    (path_trimmed_inj (fun name inside => firstSound.no_slash name (List.mem_append_left _ inside))
      (fun name inside => secondSound.no_slash name (List.mem_append_left _ inside)) same)

/-- Two paths below a directory have the same parts if they are reached by the same names. -/
theorem same_descend (root : Path) (areNames : ∀ name ∈ names, IsName name)
    (areOthers : ∀ name ∈ others, IsName name) :
    (root.descend names).same (root.descend others) = true ↔ names = others := by
  rw [same, beq_iff_eq, descend_parts root areNames, descend_parts root areOthers,
    List.append_cancel_left_eq]
  refine ⟨fun equal => ?_, fun equal => by rw [equal]⟩
  exact (List.map_inj_right fun _ _ => Part.name.inj).mp equal

/-- Different names below a directory lead to different places. -/
theorem descend_place?_inj {place : Location} (areNames : ∀ name ∈ names ++ [last], IsName name)
    (areOthers : ∀ name ∈ others ++ [other], IsName name)
    (leads : (root.descend (names ++ [last])).place? = some place)
    (leadsToo : (root.descend (others ++ [other])).place? = some place) :
    names ++ [last] = others ++ [other] := by
  rcases base?_of_descend areNames leads with ⟨location, isBase, rfl⟩
  rcases base?_of_descend areOthers leadsToo with ⟨_, isBaseToo, same⟩
  rw [isBase, Option.some_inj] at isBaseToo
  rw [← isBaseToo, List.append_cancel_left_eq] at same
  exact same

end Path

/-- An extension that a file name can have. -/
def IsExtension (extension : String) : Prop :=
  extension ≠ "" ∧ '/' ∉ extension.toList

instance (extension : String) : Decidable (IsExtension extension) :=
  inferInstanceAs (Decidable (_ ∧ _))

namespace Batch

open Hookify.Path FileAction

variable {batch : Batch} {session : Session} {files : List Path}

/-- How the files of a batch are reached, and where their components go. -/
theorem mem_files (wellNamed : session.tree.WellNamed)
    (isExtension : IsExtension batch.settings.output.extension)
    (walked : batch.files? session.tree = some files) {file : Path} (isFile : file ∈ files) :
    ∃ location names last, batch.root.place? = some location ∧
      (∀ name ∈ names ++ [last], IsName name) ∧ file = batch.root.descend (names ++ [last]) ∧
      batch.output file = batch.outputRoot.descend
        (names ++ [componentName batch.settings.output.extension last]) := by
  rcases FileTree.mem_batchFiles? wellNamed walked isFile with
    ⟨location, names, last, contents, followed, areNames, rfl, -, -⟩
  have leads := (FileTree.follow_eq_ok.mp followed).1
  rcases base?_of_place? leads with ⟨-, relative, written⟩
  exact ⟨location, names, last, leads, areNames, rfl,
    outputBelow_descend relative written isExtension.1 isExtension.2 areNames⟩

/-- Two files of a batch have the same output if and only if they are twins. -/
theorem output_same_iff (wellNamed : session.tree.WellNamed)
    (isExtension : IsExtension batch.settings.output.extension)
    (walked : batch.files? session.tree = some files) {first second : Path}
    (isFirst : first ∈ files) (isSecond : second ∈ files) :
    (batch.output first).same (batch.output second) = true ↔ first.Twins second := by
  rcases mem_files wellNamed isExtension walked isFirst with
    ⟨_, names, last, -, areNames, rfl, outputFirst⟩
  rcases mem_files wellNamed isExtension walked isSecond with
    ⟨_, others, other, -, areOthers, rfl, outputSecond⟩
  have areComponents := componentNames_areNames isExtension.1 isExtension.2 areNames
  have areOtherComponents := componentNames_areNames isExtension.1 isExtension.2 areOthers
  rw [outputFirst, outputSecond, same_descend _ areComponents areOtherComponents,
    twins_descend areNames areOthers, ← List.concat_eq_append, ← List.concat_eq_append,
    List.concat_inj, componentName_inj]

/-- What can take the place of a component: that of a twin, a stylesheet or a copy.  A component
with the name of a temporary file can be taken away. -/
inductive Displaced (batch : Batch) (process : Nat) (file : Path) (rest copied : List Path)
    (place : Location) : Prop where
  | twin (later : Path) (isLater : later ∈ rest) (twins : file.Twins later)
  | sheet (other : Path) (isOther : other ∈ file :: rest)
      (leads : (batch.sheet other).place? = some place)
  | copy (destination : Path) (isCopied : destination ∈ copied)
      (leads : destination.place? = some place)
  | temporary (isTemporary : IsTemporary process place)

/-- Whatever leads to the place of the component of a file displaces it. -/
theorem Displaced.of_target (wellNamed : session.tree.WellNamed)
    (isExtension : IsExtension batch.settings.output.extension)
    (walked : batch.files? session.tree = some files) {file later : Path} {rest copied : List Path}
    {process : Nat} {place : Location} (isFile : file ∈ files) (areFiles : rest ⊆ files)
    (leads : (batch.output file).place? = some place) (isLater : later ∈ rest)
    {target : Path} (isTarget : target ∈ batch.targets later)
    (leadsToo : target.place? = some place) : batch.Displaced process file rest copied place := by
  rcases List.mem_cons.mp isTarget with rfl | isSheet
  · refine .twin later isLater ((output_same_iff wellNamed isExtension walked isFile
      (areFiles isLater)).mp ?_)
    rcases mem_files wellNamed isExtension walked isFile with ⟨_, names, last, -, areNames, -, same⟩
    rcases mem_files wellNamed isExtension walked (areFiles isLater) with
      ⟨_, others, other, -, areOthers, -, sameToo⟩
    have areComponents := componentNames_areNames isExtension.1 isExtension.2 areNames
    have areOtherComponents := componentNames_areNames isExtension.1 isExtension.2 areOthers
    rw [same] at leads ⊢
    rw [sameToo] at leadsToo ⊢
    exact (same_descend _ areComponents areOtherComponents).mpr
      (descend_place?_inj areComponents areOtherComponents leads leadsToo)
  · rw [List.mem_singleton.mp isSheet] at leadsToo
    exact .sheet later (List.mem_cons_of_mem _ isLater) leadsToo

/-- What a file that has been converted leaves in the end: its component, unless something that came
later has displaced it. -/
theorem component_kept (wellNamed : session.tree.WellNamed)
    (isExtension : IsExtension batch.settings.output.extension)
    (walked : batch.files? session.tree = some files) {before rest : List Path} {file : Path}
    (split : files = before ++ file :: rest) {result : WrittenConversion} {middle : Session}
    (converted : (batch.action file).run (batch.convertAll before session).2 = .ok result middle)
    (plan : CopyPlan) :
    let last := copyAll plan (batch.convertAll rest middle).2
    ∃ text place,
      (readText file).run (batch.convertAll before session).2 =
        .ok text (batch.convertAll before session).2 ∧
      (batch.output file).place? = some place ∧
      (last.2.tree.contents? place =
          some (.text ((Document.new text file).convert batch.settings).generated.code) ∨
        batch.Displaced session.process file rest last.1.copied place) := by
  rcases convertAll_written batch before session with ⟨process, -⟩
  rcases converted_written converted with
    ⟨-, sameProcess, text, place, later, region, read, leads, besides, written⟩
  rcases convertAll_written batch rest middle with ⟨processRest, writes, below, targets, further⟩
  rcases copyAll_written plan (batch.convertAll rest middle).2 with ⟨-, copies, _, copied, placed⟩
  rw [processRest] at placed
  rw [sameProcess] at further placed
  rw [process] at written further placed
  refine ⟨text, place, read, leads, ?_⟩
  have isFile : file ∈ files := split ▸ List.mem_append_right _ List.mem_cons_self
  have areFiles : rest ⊆ files := fun other isOther =>
    split ▸ List.mem_append_right _ (List.mem_cons_of_mem _ isOther)
  by_cases isTemporary : IsTemporary session.process place
  · exact Or.inr (.temporary isTemporary)
  rcases copied.lookup_cases place with noCopy | ⟨destination, isCopied, leadsToo⟩
  swap
  · exact Or.inr (.copy destination isCopied leadsToo)
  rcases targets.lookup_cases place with noTarget | ⟨target, isTarget, leadsToo⟩
  swap
  · rcases List.mem_flatMap.mp isTarget with ⟨other, isLater, isTarget⟩
    exact Or.inr (.of_target wellNamed isExtension walked isFile areFiles leads isLater isTarget
      leadsToo)
  rcases besides.lookup_cases place with noSheet | ⟨sheet, isSheet, leadsToo⟩
  swap
  · rw [List.mem_singleton.mp isSheet] at leadsToo
    exact Or.inr (.sheet file List.mem_cons_self leadsToo)
  left
  have whole := (written.append further).append placed
  rw [whole.contents?_eq isTemporary, List.lookup_append, List.lookup_append, List.lookup_append,
    noCopy, noTarget, noSheet, Option.none_or, Option.none_or, Option.none_or,
    List.lookup_cons_self]
  rfl

/-- A script in a page. -/
def pageText : String :=
  "<script>$('#a').hide();</script>"

/-- A script by itself. -/
def scriptText : String :=
  "$('#b').hide();"

/-- A page and a script that have one name. -/
def pageAndScript : Session :=
  let entries := [("a.html", FileTree.file (.text pageText)), ("a.js", .file (.text scriptText))]
  ⟨.directory [("src", .directory entries)], 0, 0⟩

/-- The batch that converts them. -/
def pageAndScriptBatch : Batch :=
  ⟨⟨"src"⟩, ⟨"out"⟩, {}⟩

theorem pageAndScript_wellNamed : pageAndScript.tree.WellNamed := by
  refine .directory _ (by decide) (by decide +kernel) ?_
  refine List.forall_mem_singleton.mpr (.directory _ (by decide) (by decide +kernel) ?_)
  exact List.forall_mem_cons.mpr ⟨.file _, List.forall_mem_singleton.mpr (.file _)⟩

theorem pageAndScript_files :
    pageAndScriptBatch.files? pageAndScript.tree = some [⟨"src/a.html"⟩, ⟨"src/a.js"⟩] := by
  have followed : pageAndScript.tree.follow ⟨"src"⟩ = .ok ["src"] := by decide +kernel
  refine FileTree.batchFiles?_of_sorted followed rfl ?_ ?_
  · decide +kernel
  · decide +kernel

/-- Both are converted, and nothing is copied. -/
theorem pageAndScript_run :
    ∃ summary done, pageAndScriptBatch.run? pageAndScript = some (summary, done) ∧
      summary.files.map (·.status) =
        [.converted ⟨"out/a.jsx"⟩ "A" 0, .converted ⟨"out/a.jsx"⟩ "A" 0] ∧
      summary.resources.copied = [] ∧
      done.tree.contents? ["out", "a.jsx"] ≠
        some (.text ((Document.new pageText ⟨"src/a.html"⟩).convert {}).generated.code) := by
  -- one evaluation for all that is asked of the run
  refine ⟨_, _, by rw [run?, pageAndScript_files, Option.map_some], ?_⟩
  decide +kernel

/-- The script is still there when it is read. -/
theorem pageAndScript_follow :
    (pageAndScriptBatch.convertAll [⟨"src/a.html"⟩] pageAndScript).2.tree.follow ⟨"src/a.js"⟩ =
      .ok ["src", "a.js"] := by
  decide +kernel

theorem pageAndScript_entryAt? :
    (pageAndScriptBatch.convertAll [⟨"src/a.html"⟩] pageAndScript).2.tree.entryAt?
      ["src", "a.js"] = some (.file (.text scriptText)) := by
  decide +kernel

end Batch
end Hookify
