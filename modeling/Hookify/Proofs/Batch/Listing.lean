import Hookify.Proofs.Batch.Walk

namespace Hookify

/-!
# A walk against the full listing

A walk does not enter some directories, so it never looks at what is below them.
The same files are found by listing all files below the root and asking each of
them by itself: for its extension, for the patterns that match its path, and for
the names and locations of the directories that its path leads through.  That
holds as long as no directory has an ignore file, whose rules are the only ones
that depend on where they stand.

The order of the files is that of the parts of their paths.
-/

/-! ## The order of paths -/

namespace Path

variable {first second third : List Part}

theorem Part.le_total (first second : Part) : first.le second = true ∨ second.le first = true := by
  cases first <;> cases second <;> simp [Part.le, Part.rank, String.le_total]

theorem Part.le_trans {first second third : Part} (left : first.le second = true)
    (right : second.le third = true) : first.le third = true := by
  cases first <;> cases second <;> cases third <;> simp_all [Part.le, Part.rank]
  exact String.le_trans left right

theorem Part.le_antisymm {first second : Part} (left : first.le second = true)
    (right : second.le first = true) : first = second := by
  cases first <;> cases second <;> simp_all [Part.le, Part.rank]
  exact String.le_antisymm left right

theorem partsLe_total (first second : List Part) :
    partsLe first second = true ∨ partsLe second first = true := by
  induction first generalizing second with
  | nil => exact .inl rfl
  | cons part first ih =>
      cases second with
      | nil => exact .inr rfl
      | cons other second =>
          rw [partsLe, partsLe]
          by_cases same : part = other
          · subst same
            simpa using ih second
          · simp only [beq_eq_false_iff_ne.mpr same, beq_eq_false_iff_ne.mpr (Ne.symm same)]
            exact Part.le_total part other

theorem partsLe_trans (left : partsLe first second = true) (right : partsLe second third = true) :
    partsLe first third = true := by
  induction first generalizing second third with
  | nil => rfl
  | cons part first ih =>
      rcases second with _ | ⟨other, second⟩
      · cases left
      rcases third with _ | ⟨last, third⟩
      · cases right
      simp only [partsLe, beq_iff_eq] at left right ⊢
      by_cases known : part = other
      · subst known
        rw [if_pos rfl] at left
        split
        · rename_i same
          rw [if_pos same] at right
          exact ih left right
        · rename_i different
          rwa [if_neg different] at right
      · rw [if_neg known] at left
        by_cases same : other = last
        · subst same
          rwa [if_neg known]
        · rw [if_neg same] at right
          have different : part ≠ last := by
            rintro rfl
            exact known (Part.le_antisymm left right)
          rw [if_neg different]
          exact Part.le_trans left right

theorem pairwise_mergeSort_le (files : List Path) :
    (files.mergeSort Path.le).Pairwise fun first second => first.le second = true := by
  have trans (first second third : Path) (left : first.le second = true)
      (right : second.le third = true) : first.le third = true :=
    partsLe_trans left right
  have total (first second : Path) : (first.le second || second.le first) = true :=
    Bool.or_eq_true _ _ ▸ partsLe_total first.parts second.parts
  exact List.pairwise_mergeSort trans total files

end Path

/-! ## The full listing -/

namespace FileTree

mutual

/-- All files of a tree, as the names that lead to them. -/
def listing : FileTree → List (List String)
  | .file _ => [[]]
  | .directory entries => listingOf entries

/-- All files of the entries of a directory. -/
def listingOf : List (String × FileTree) → List (List String)
  | [] => []
  | (name, child) :: rest => child.listing.map (name :: ·) ++ listingOf rest

end

/-- No directory of the tree has an ignore file. -/
def Unruled (tree : FileTree) : Prop :=
  ∀ location contents, tree.find? (location ++ [ignoreFileName]) ≠ some (.file contents)

section Listing

variable {tree : FileTree} {entries : List (String × FileTree)} {names : List String}

theorem ne_nil_of_mem_listingOf (listed : names ∈ listingOf entries) : names ≠ [] := by
  induction entries with
  | nil => cases listed
  | cons first entries ih =>
      rcases first with ⟨name, child⟩
      rw [listingOf, List.mem_append, List.mem_map] at listed
      rcases listed with ⟨below, _, rfl⟩ | later
      · exact List.cons_ne_nil name below
      · exact ih later

theorem mem_listingOf {name : String} :
    name :: names ∈ listingOf entries ↔
      ∃ child, (name, child) ∈ entries ∧ names ∈ child.listing := by
  induction entries with
  | nil => exact iff_of_false List.not_mem_nil fun ⟨_, absent, _⟩ => List.not_mem_nil absent
  | cons first entries ih =>
      rcases first with ⟨known, other⟩
      rw [listingOf, List.mem_append, List.mem_map, ih]
      constructor
      · rintro (⟨below, listed, same⟩ | ⟨child, inside, listed⟩)
        · rcases List.cons.inj same with ⟨rfl, rfl⟩
          exact ⟨other, List.mem_cons_self, listed⟩
        · exact ⟨child, List.mem_cons_of_mem _ inside, listed⟩
      · rintro ⟨child, inside, listed⟩
        rcases List.mem_cons.mp inside with same | later
        · cases same
          exact .inl ⟨names, listed, rfl⟩
        · exact .inr ⟨child, later, listed⟩

/-- What is listed are the files of a tree. -/
theorem mem_listing (wellNamed : tree.WellNamed) :
    names ∈ tree.listing ↔ ∃ contents, tree.entryAt? names = some (.file contents) := by
  induction wellNamed generalizing names with
  | file contents =>
      rw [listing, List.mem_singleton]
      constructor
      · rintro rfl
        exact ⟨contents, rfl⟩
      · rintro ⟨other, held⟩
        cases names with
        | nil => rfl
        | cons name names => cases held
  | directory entries different proper below ih =>
      rw [listing]
      cases names with
      | nil => exact iff_of_false (fun listed => ne_nil_of_mem_listingOf listed rfl) nofun
      | cons name names =>
          rw [mem_listingOf, entryAt?_directory_cons]
          constructor
          · rintro ⟨child, inside, listed⟩
            rw [Walk.lookup_of_mem different inside]
            exact (ih _ inside).mp listed
          · rintro ⟨contents, held⟩
            rcases Option.bind_eq_some_iff.mp held with ⟨child, found, isFile⟩
            have inside := Walk.mem_of_lookup found
            exact ⟨child, inside, (ih _ inside).mpr ⟨contents, isFile⟩⟩

theorem areNames_of_mem_listing (wellNamed : tree.WellNamed) (listed : names ∈ tree.listing) :
    ∀ name ∈ names, Path.IsName name := by
  induction wellNamed generalizing names with
  | file contents =>
      rw [listing, List.mem_singleton] at listed
      exact listed ▸ nofun
  | directory entries different proper below ih =>
      rw [listing] at listed
      cases names with
      | nil => exact nofun
      | cons name names =>
          rcases mem_listingOf.mp listed with ⟨child, inside, listed⟩
          exact List.forall_mem_cons.mpr ⟨proper _ inside, ih _ inside listed⟩

/-- That no directory has an ignore file can be read off the listing. -/
theorem unruled_iff (wellNamed : tree.WellNamed) :
    tree.Unruled ↔ ∀ names ∈ tree.listing, names.getLast? ≠ some ignoreFileName := by
  constructor
  · intro unruled names listed last
    rcases List.getLast?_eq_some_iff.mp last with ⟨location, rfl⟩
    rcases (mem_listing wellNamed).mp listed with ⟨contents, held⟩
    exact unruled location contents (find?_eq_file.mpr held)
  · intro unruled location contents held
    refine unruled _ ((mem_listing wellNamed).mpr ⟨contents, find?_eq_file.mp held⟩) ?_
    exact List.getLast?_concat

theorem Unruled.find? {location : Location} {found : FileTree} (unruled : tree.Unruled)
    (held : tree.find? location = some found) : found.Unruled := by
  intro inside contents isFile
  refine unruled (location ++ inside) contents ?_
  rw [List.append_assoc, find?_append, held]
  exact isFile

end Listing

end FileTree

/-! ## Walks without rules -/

namespace Walk

variable {walk : Walk} {levels : List IgnoreLevel} {location : Location} {path : Path}
  {entries : List (String × FileTree)} {names : List String} {name : String}

/-- None of the rules says anything. -/
def AreSilent (levels : List IgnoreLevel) : Prop :=
  ∀ level ∈ levels, level.rules = []

theorem not_isIgnored (silent : AreSilent levels) (isDirectory : Bool) :
    isIgnored levels location isDirectory = false := by
  have none : (levels.findSome? fun level =>
      IgnoreRule.verdict? level.rules (locationText level.base location) isDirectory) = none := by
    rw [List.findSome?_eq_none_iff]
    intro level member
    rw [silent level member]
    rfl
  rw [isIgnored, none]
  rfl

theorem levelOf_rules (unruled : (FileTree.directory entries).Unruled) :
    (levelOf location entries).rules = [] := by
  rw [levelOf]
  dsimp only
  split
  · rename_i text held
    exact absurd (by rw [List.nil_append, FileTree.find?, held]; rfl) (unruled [] (.text text))
  · rfl

theorem areSilent_levelsAbove {tree : FileTree} (unruled : tree.Unruled) (location : Location) :
    AreSilent (levelsAbove tree location) := by
  intro level member
  rcases List.mem_filterMap.mp member with ⟨depth, _, isLevel⟩
  split at isLevel
  · rename_i entries held
    cases isLevel
    exact levelOf_rules (unruled.find? held)
  · cases isLevel

/-- The directories that names lead through from a location are entered. -/
def passes (walk : Walk) (location : Location) : List String → Bool
  | [] => true
  | name :: names =>
      names.isEmpty ||
        (walk.enters (location ++ [name]) name && passes walk (location ++ [name]) names)

theorem passes_iff :
    walk.passes location names = true ↔ ∀ above name below, names = above ++ name :: below →
      below ≠ [] → walk.enters (location ++ (above ++ [name])) name = true := by
  induction names generalizing location with
  | nil => exact iff_of_true rfl fun above name below same =>
      absurd same.symm (List.append_ne_nil_of_right_ne_nil above (List.cons_ne_nil name below))
  | cons first names ih =>
      rw [passes, Bool.or_eq_true, Bool.and_eq_true, ih, List.isEmpty_iff]
      constructor
      · intro passes above name below same filled
        cases above with
        | nil =>
            rcases List.cons.inj same with ⟨rfl, rfl⟩
            exact (passes.resolve_left filled).1
        | cons next above =>
            rcases List.cons.inj same with ⟨rfl, rfl⟩
            have some_name : above ++ name :: below ≠ [] :=
              List.append_ne_nil_of_right_ne_nil above (List.cons_ne_nil name below)
            have deeper := (passes.resolve_left some_name).2 above name below rfl filled
            rwa [List.append_assoc] at deeper
      · intro entered
        by_cases last : names = []
        · exact .inl last
        · refine .inr ⟨entered [] first names rfl last, fun above name below same filled => ?_⟩
          have deeper := entered (first :: above) name below (congrArg (first :: ·) same) filled
          rwa [List.append_assoc]

/-- A file is found below a directory, judged by itself. -/
def finds (walk : Walk) (location : Location) (path : Path) (names : List String) : Bool :=
  walk.passes location names && walk.wants (path.descend names)

theorem finds_singleton :
    walk.finds location path [name] = walk.wants (path.join ⟨name⟩) :=
  Bool.true_and _

theorem finds_cons (filled : names ≠ []) :
    walk.finds location path (name :: names) =
      (walk.enters (location ++ [name]) name &&
        walk.finds (location ++ [name]) (path.join ⟨name⟩) names) := by
  rw [finds, passes, List.isEmpty_eq_false_iff.mpr filled, Bool.false_or, Bool.and_assoc]
  rfl

/-- What a walk finds at an entry of a directory are the files of the full listing that it would
find by themselves, if the same is true of what is below. -/
theorem visit_entry {child : FileTree} (silent : AreSilent levels)
    (below : child.isDirectory = true →
      walk.visit levels (location ++ [name]) (path.join ⟨name⟩) child =
        (child.listing.filter (walk.finds (location ++ [name]) (path.join ⟨name⟩))).map
          (path.join ⟨name⟩).descend) :
    (if walk.admits levels (location ++ [name]) name (path.join ⟨name⟩) child.isDirectory then
      walk.visit levels (location ++ [name]) (path.join ⟨name⟩) child
    else []) =
      ((child.listing.map (name :: ·)).filter (walk.finds location path)).map path.descend := by
  rw [admits, not_isIgnored silent, Bool.not_false, Bool.true_and]
  cases child with
  | file contents =>
      rw [FileTree.listing, List.map_singleton, List.filter_cons, finds_singleton, visit,
        FileTree.isDirectory, if_neg Bool.false_ne_true]
      split
      · rfl
      · rfl
  | directory entries =>
      have step : ∀ names ∈ (FileTree.directory entries).listing,
          (walk.finds location path ∘ (name :: ·)) names =
            (walk.enters (location ++ [name]) name &&
              walk.finds (location ++ [name]) (path.join ⟨name⟩) names) := by
        intro names listed
        rw [FileTree.listing] at listed
        exact finds_cons (FileTree.ne_nil_of_mem_listingOf listed)
      rw [List.filter_map, List.map_map, List.filter_congr step, below rfl,
        FileTree.isDirectory, if_pos rfl]
      cases walk.enters (location ++ [name]) name with
      | true =>
          simp only [Bool.true_and]
          rfl
      | false => simp

theorem visitEntries_eq_filter (silent : AreSilent levels)
    (below : ∀ entry ∈ entries, entry.2.isDirectory = true → ∀ location path,
      walk.visit levels location path entry.2 =
        (entry.2.listing.filter (walk.finds location path)).map path.descend) :
    walk.visitEntries levels location path entries =
      ((FileTree.listingOf entries).filter (walk.finds location path)).map path.descend := by
  induction entries with
  | nil => rfl
  | cons first entries ih =>
      rcases first with ⟨name, child⟩
      rcases List.forall_mem_cons.mp below with ⟨here, below⟩
      rw [visitEntries, FileTree.listingOf, List.filter_append, List.map_append, ih below]
      exact congrArg (· ++ _) (visit_entry silent fun isDirectory => here isDirectory _ _)

/-- Without rules, a walk finds the files of the full listing that it would find by themselves. -/
theorem visit_eq_filter {tree : FileTree} (wellNamed : tree.WellNamed) (unruled : tree.Unruled)
    (isDirectory : tree.isDirectory = true) (silent : AreSilent levels) :
    walk.visit levels location path tree =
      (tree.listing.filter (walk.finds location path)).map path.descend := by
  induction wellNamed generalizing levels location path with
  | file contents => cases isDirectory
  | directory entries different proper below ih =>
      rw [visit, FileTree.listing]
      have silent : AreSilent (levelOf location entries :: levels) :=
        List.forall_mem_cons.mpr ⟨levelOf_rules unruled, silent⟩
      refine visitEntries_eq_filter silent fun entry inside isDirectory location path => ?_
      have held : (FileTree.directory entries).find? [entry.1] = some entry.2 := by
        rw [FileTree.find?, lookup_of_mem different inside]
        rfl
      exact ih entry inside (unruled.find? held) isDirectory silent

end Walk

/-! ## The files of a batch -/

/-- A file below the root of a batch belongs to it, judged by itself: it has one of the extensions,
no valid pattern matches it, and none of the directories between the root and the file is one that
is skipped or the one that the batch writes to. The names lead from the root to the file. -/
structure BatchSettings.Selects (settings : BatchSettings) (root : Path) (location : Location)
    (excluded : Option Location) (names : List String) : Prop where
  wanted : ∃ extension ∈ settings.extensions,
    (root.descend names).extension?.map Text.asciiLower = some (Walk.plainExtension extension)
  unmatched : ∀ pattern ∈ settings.ignored, ∀ glob ∈ Glob.ofSetting? pattern,
    glob.matchesChars (Path.ofNames names).text.toList = false ∧
      glob.matchesChars (root.descend names).text.toList = false
  entered : ∀ above name below, names = above ++ name :: below → below ≠ [] →
    name ∉ settings.skipped ∧ excluded ≠ some (location ++ (above ++ [name]))

namespace Walk

variable {settings : BatchSettings} {root : Path} {location : Location}
  {excluded : Option Location} {names : List String}

theorem hasExtension_iff {file : Path} :
    (Walk.of settings root excluded).hasExtension file = true ↔
      ∃ extension ∈ settings.extensions,
        file.extension?.map Text.asciiLower = some (plainExtension extension) := by
  rw [hasExtension]
  cases file.extension? with
  | none => simp
  | some extension => simp [Walk.of, eq_comm]

theorem not_isExcepted_iff {file relative : Path} (below : root.below? file = some relative) :
    (! (Walk.of settings root excluded).isExcepted file) = true ↔
      ∀ pattern ∈ settings.ignored, ∀ glob ∈ Glob.ofSetting? pattern,
        glob.matchesChars relative.text.toList = false ∧
          glob.matchesChars file.text.toList = false := by
  have isRelative : ((Walk.of settings root excluded).root.below? file).getD file = relative := by
    rw [show (Walk.of settings root excluded).root = root from rfl, below]
    rfl
  rw [isExcepted, isRelative, Bool.not_eq_true', List.any_eq_false, Walk.of]
  simp only [List.mem_filterMap, Bool.not_eq_true, Bool.or_eq_false_iff]
  constructor
  · intro unmatched pattern isPattern glob valid
    exact unmatched glob ⟨pattern, isPattern, valid⟩
  · rintro unmatched glob ⟨pattern, isPattern, valid⟩
    exact unmatched pattern isPattern glob valid

theorem enters_iff {place : Location} {name : String} :
    (Walk.of settings root excluded).enters place name = true ↔
      name ∉ settings.skipped ∧ excluded ≠ some place := by
  simp [enters, Walk.of]

theorem passes_of_iff :
    (Walk.of settings root excluded).passes location names = true ↔
      ∀ above name below, names = above ++ name :: below → below ≠ [] →
        name ∉ settings.skipped ∧ excluded ≠ some (location ++ (above ++ [name])) := by
  simp only [passes_iff, enters_iff]

theorem finds_iff (relative : root.segments.rooted = false) (written : root.text ≠ "")
    (filled : names ≠ []) (areNames : ∀ name ∈ names, Path.IsName name) :
    (Walk.of settings root excluded).finds location root names = true ↔
      settings.Selects root location excluded names := by
  rcases List.eq_nil_or_concat names with empty | ⟨above, last, rfl⟩
  · exact absurd empty filled
  rw [List.concat_eq_append] at areNames ⊢
  have below := Path.below?_descend relative written areNames
  rw [finds, wants, Bool.and_eq_true, Bool.and_eq_true, passes_of_iff, hasExtension_iff,
    not_isExcepted_iff below]
  exact ⟨fun ⟨entered, wanted, unmatched⟩ => ⟨wanted, unmatched, entered⟩,
    fun selects => ⟨selects.entered, selects.wanted, selects.unmatched⟩⟩

end Walk

instance {settings : BatchSettings} {root : Path} {location : Location}
    {excluded : Option Location} {names : List String} :
    Decidable (settings.Selects root location excluded names) :=
  decidable_of_iff
    ((∃ extension ∈ settings.extensions,
        (root.descend names).extension?.map Text.asciiLower =
          some (Walk.plainExtension extension)) ∧
      (∀ pattern ∈ settings.ignored, ∀ glob ∈ Glob.ofSetting? pattern,
        glob.matchesChars (Path.ofNames names).text.toList = false ∧
          glob.matchesChars (root.descend names).text.toList = false) ∧
      (Walk.of settings root excluded).passes location names = true)
    ⟨fun ⟨wanted, unmatched, entered⟩ => ⟨wanted, unmatched, Walk.passes_of_iff.mp entered⟩,
      fun selects =>
        ⟨selects.wanted, selects.unmatched, Walk.passes_of_iff.mpr selects.entered⟩⟩

namespace FileTree

variable {tree : FileTree} {settings : BatchSettings} {root outputRoot : Path}
  {location : Location} {entries : List (String × FileTree)}

/-- A root that is named like a directory to be skipped, with files to be left out for every
reason. -/
def siteTree : FileTree :=
  let script := FileTree.file (.text "")
  .directory
    [("build", .directory
      [("a", .directory [("page.html", script), ("notes.txt", script)]), ("b.JS", script),
        ("dist", .directory [("bundle", .directory [("c.js", script)])]), ("d.min.js", script),
        ("out", .directory [("old.js", script)])])]

theorem siteTree_wellNamed : siteTree.WellNamed := by
  have file : FileTree.WellNamed (.file (.text "")) := .file _
  have bundle : FileTree.WellNamed (.directory [("c.js", .file (.text ""))]) :=
    .directory _ (by decide) (by decide +kernel) (by simpa using file)
  refine .directory _ (by decide) (by decide +kernel) (List.forall_mem_singleton.mpr ?_)
  refine .directory _ (by decide) (by decide +kernel) ?_
  simp only [List.forall_mem_cons]
  refine ⟨.directory _ (by decide) (by decide +kernel) ?_, file,
    .directory _ (by decide) (by decide +kernel) ?_, file,
    .directory _ (by decide) (by decide +kernel) ?_, nofun⟩
  · simpa using file
  · simpa using bundle
  · simpa using file

end FileTree
end Hookify
