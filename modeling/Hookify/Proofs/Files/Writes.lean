import Hookify.Files.Access
import Hookify.Proofs.Files.Paths

namespace Hookify

/-!
# What writing a file does

First the directory of the file is prepared, then the contents are put under a
temporary name, and that file takes the place of the one to be written.  A write
fails in one of three ways, and in none of them is there anything left under the
temporary name.  So there are two outcomes for the files: the write has been done,
or no file is what it was not before.
-/

namespace FileAction

variable {First Second : Type}

/-! ## Runs -/

theorem run_bind_ok {action : FileAction First} {next : First → FileAction Second}
    {result : First} {session after : Session} (ran : action.run session = .ok result after) :
    (action >>= next).run session = (next result).run after := by
  rw [EStateM.run_bind, ran]

theorem run_bind_error {action : FileAction First} {next : First → FileAction Second}
    {failure : FileFailure} {session after : Session}
    (ran : action.run session = .error failure after) :
    (action >>= next).run session = .error failure after := by
  rw [EStateM.run_bind, ran]

theorem run_look {next : Session → FileAction Second} {session : Session} :
    (get >>= next).run session = (next session).run session :=
  rfl

/-- What an action has changed before it fails stays. -/
theorem run_catch {action : FileAction First} {handler : FileFailure → FileAction First}
    {session : Session} :
    (tryCatch action handler).run session =
      match action.run session with
      | .ok result after => .ok result after
      | .error failure after => (handler failure).run after := by
  change EStateM.tryCatch action handler session = _
  unfold EStateM.tryCatch EStateM.run
  cases action session <;> rfl

/-- What there is after an action, whether it fails or not. -/
def after (action : FileAction First) (session : Session) : Session :=
  match action.run session with
  | .ok _ after => after
  | .error _ after => after

theorem after_ok {action : FileAction First} {result : First} {session done : Session}
    (ran : action.run session = .ok result done) : after action session = done := by
  rw [after, ran]

theorem after_error {action : FileAction First} {failure : FileFailure} {session done : Session}
    (ran : action.run session = .error failure done) : after action session = done := by
  rw [after, ran]

theorem after_bind_ok {action : FileAction First} {next : First → FileAction Second}
    {result : First} {session middle : Session} (ran : action.run session = .ok result middle) :
    after (action >>= next) session = after (next result) middle := by
  rw [after, after, run_bind_ok ran]

theorem after_bind_error {action : FileAction First} {next : First → FileAction Second}
    {failure : FileFailure} {session done : Session}
    (ran : action.run session = .error failure done) : after (action >>= next) session = done :=
  after_error (run_bind_error ran)

theorem after_bind_pure (action : FileAction First) (tell : First → Second) (session : Session) :
    after (action >>= fun result => pure (tell result)) session = after action session := by
  cases ran : action.run session with
  | ok result done =>
      rw [after_bind_ok ran, after_ok ran]
      rfl
  | error failure done => rw [after_bind_error ran, after_error ran]

variable {session : Session} {path source target : Path} {contents : Contents}

theorem run_check_ok {look : FileTree → Except FileError First} {result : First}
    (found : look session.tree = .ok result) :
    (check path look).run session = .ok result session := by
  rw [EStateM.run, check, found]

theorem run_check_error {look : FileTree → Except FileError First} {error : FileError}
    (stuck : look session.tree = .error error) :
    (check path look).run session = .error ⟨path, error⟩ session := by
  rw [EStateM.run, check, stuck]

theorem run_change {edit : FileTree → FileTree} :
    (change edit).run session = .ok () { session with tree := edit session.tree } :=
  rfl

theorem run_fill_ok {place : Location} (free : session.tree.locationForFile path = .ok place) :
    (fill path contents).run session =
      .ok () { session with tree := FileTree.put (.file contents) place session.tree } := by
  rw [fill, run_bind_ok (run_check_ok free), run_change]

theorem run_fill_error {error : FileError}
    (stuck : session.tree.locationForFile path = .error error) :
    (fill path contents).run session = .error ⟨path, error⟩ session := by
  rw [fill, run_bind_error (run_check_error stuck)]

theorem run_rename_ok {old new : Location} {node : FileTree}
    (isOld : session.tree.locationForFile source = .ok old)
    (isNew : session.tree.locationForFile target = .ok new)
    (found : session.tree.find? old = some node) :
    (rename source target).run session =
      .ok () { session with tree := FileTree.put node new (session.tree.erase old) } := by
  rw [rename, run_bind_ok (run_check_ok isOld), run_bind_ok (run_check_ok isNew), run_look, found,
    run_change]

theorem run_rename_error {old : Location} {error : FileError}
    (isOld : session.tree.locationForFile source = .ok old)
    (stuck : session.tree.locationForFile target = .error error) :
    (rename source target).run session = .error ⟨target, error⟩ session := by
  rw [rename, run_bind_ok (run_check_ok isOld), run_bind_error (run_check_error stuck)]

theorem run_discard_ok {place : Location} (free : session.tree.locationForFile path = .ok place) :
    (discard path).run session = .ok () { session with tree := session.tree.erase place } := by
  rw [discard, run_look, free, run_change]

theorem run_discard_error {error : FileError}
    (stuck : session.tree.locationForFile path = .error error) :
    (discard path).run session = .ok () session := by
  rw [discard, run_look, stuck]
  rfl

theorem run_ensureDirectory :
    (ensureDirectory path).run session =
      if session.tree.holds path then .ok () session
      else if path.isAbsolute then .error ⟨path, .missing⟩ session
      else
        match FileTree.createFrom false [] path.segments.names session.tree with
        | (some error, tree) => .error ⟨path, error⟩ { session with tree := tree }
        | (none, tree) => .ok () { session with tree := tree } := by
  rw [ensureDirectory, run_look]
  by_cases held : session.tree.holds path = true
  · rw [if_pos held, if_pos held]
    rfl
  · rw [if_neg held, if_neg held]
    by_cases rooted : path.isAbsolute = true
    · rw [if_pos rooted, if_pos rooted]
      rfl
    · rw [if_neg rooted, if_neg rooted]
      rcases FileTree.createFrom false [] path.segments.names session.tree with ⟨_ | error, tree⟩
      · rfl
      · rfl

/-! ## The steps of a write -/

/-- Make sure that there is a directory for a file. -/
def prepare (path : Path) : FileAction Unit :=
  match path.parent? with
  | some parent => if parent.text.isEmpty then pure () else ensureDirectory parent
  | none => pure ()

/-- Put contents under a hidden path, and from there into the place of a file. -/
def replace (hidden path : Path) (contents : Contents) : FileAction Unit :=
  tryCatch (do fill hidden contents; rename hidden path) fun failure => do
    discard hidden
    throw failure

theorem write_eq (path : Path) (contents : Contents) :
    write path contents = (do
      prepare path
      replace (<- temporary path) path contents) := by
  rw [write, prepare]
  cases path.parent? with
  | none => rfl
  | some parent =>
      by_cases relative : parent.text.isEmpty = true
      · simp only [relative, if_true]
        rfl
      · simp only [relative]
        rfl

theorem run_replace_ok {hidden : Path} {filled after : Session}
    (ranFill : (fill hidden contents).run session = .ok () filled)
    (ranRename : (rename hidden path).run filled = .ok () after) :
    (replace hidden path contents).run session = .ok () after := by
  rw [replace, run_catch, run_bind_ok ranFill, ranRename]

theorem run_replace_stuck {hidden : Path} {failure : FileFailure}
    (ranFill : (fill hidden contents).run session = .error failure session)
    (ranDiscard : (discard hidden).run session = .ok () session) :
    (replace hidden path contents).run session = .error failure session := by
  rw [replace, run_catch, run_bind_error ranFill]
  exact (run_bind_ok ranDiscard).trans (EStateM.run_throw failure session)

theorem run_replace_error {hidden : Path} {failure : FileFailure} {filled after : Session}
    (ranFill : (fill hidden contents).run session = .ok () filled)
    (ranRename : (rename hidden path).run filled = .error failure filled)
    (ranDiscard : (discard hidden).run filled = .ok () after) :
    (replace hidden path contents).run session = .error failure after := by
  rw [replace, run_catch, run_bind_ok ranFill, ranRename]
  exact (run_bind_ok ranDiscard).trans (EStateM.run_throw failure after)

/-- The path under which a file is written at first. -/
def hiddenPath (process number : Nat) (path : Path) : Path :=
  path.withFileName (temporaryName process number (path.fileName?.getD ""))

theorem run_temporary :
    (temporary path).run session =
      .ok (hiddenPath session.process session.named path)
        { session with named := session.named + 1 } :=
  rfl

theorem entryAt?_put_of_locationForFile (contents : Contents) {tree : FileTree} {place : Location}
    (free : tree.locationForFile path = .ok place) :
    (FileTree.put (.file contents) place tree).entryAt? =
      Function.update tree.entryAt? place (some (.file contents)) := by
  rcases FileTree.locationForFile_eq_ok.mp free with
    ⟨before, last, parent, -, -, -, -, enters, rfl, notDirectory⟩
  exact FileTree.entryAt?_put (FileTree.isLeaf_file contents) enters notDirectory

theorem entryAt?_erase_of_locationForFile {tree : FileTree} {place : Location}
    (free : tree.locationForFile path = .ok place) :
    (tree.erase place).entryAt? = Function.update tree.entryAt? place none := by
  rcases FileTree.locationForFile_eq_ok.mp free with
    ⟨before, last, parent, -, -, -, -, enters, rfl, notDirectory⟩
  exact FileTree.entryAt?_erase enters notDirectory

theorem ne_of_locationForFile {tree : FileTree} {place station : Location}
    (free : tree.locationForFile path = .ok place)
    (held : tree.entryAt? station = some .directory) : station ≠ place := by
  rcases FileTree.locationForFile_eq_ok.mp free with ⟨_, _, _, -, -, -, -, -, -, notDirectory⟩
  rintro rfl
  exact notDirectory held

/-- A place for a file stays one when a file is put there. -/
theorem locationForFile_put (contents : Contents) {tree : FileTree} {place : Location}
    (free : tree.locationForFile path = .ok place) :
    (FileTree.put (.file contents) place tree).locationForFile path = .ok place := by
  have put := entryAt?_put_of_locationForFile contents free
  refine FileTree.locationForFile_mono free (fun station held => ?_) ?_
  · rw [put, Function.update_of_ne (ne_of_locationForFile free held), held]
  · rw [put, Function.update_self]
    exact nofun

/-- Any place for a file stays one when a file is taken away. -/
theorem locationForFile_erase {tree : FileTree} {place under : Location} {hidden : Path}
    (free : tree.locationForFile path = .ok place)
    (isHidden : tree.locationForFile hidden = .ok under) :
    (tree.erase under).locationForFile path = .ok place := by
  have erased := entryAt?_erase_of_locationForFile isHidden
  refine FileTree.locationForFile_mono free (fun station held => ?_) ?_
  · rw [erased, Function.update_of_ne (ne_of_locationForFile isHidden held), held]
  · rw [erased, Function.update_apply]
    split
    · exact nofun
    · intro held
      exact ne_of_locationForFile free held rfl

/-- How a write can end: its directory cannot be prepared, or there is no place for the hidden
file, or none for the file itself, or all is done. -/
theorem write_cases (path : Path) (contents : Contents) (session : Session) :
    (∃ failure grown, (prepare path).run session = .error failure grown ∧
      (write path contents).run session = .error failure grown) ∨
    ∃ grown, (prepare path).run session = .ok () grown ∧
      let hidden := hiddenPath grown.process grown.named path
      ((∃ error, grown.tree.locationForFile hidden = .error error ∧
        (write path contents).run session =
          .error ⟨hidden, error⟩ { grown with named := grown.named + 1 }) ∨
      ∃ under, grown.tree.locationForFile hidden = .ok under ∧
        let filled := FileTree.put (.file contents) under grown.tree
        ((∃ error, filled.locationForFile path = .error error ∧
          (write path contents).run session =
            .error ⟨path, error⟩ ⟨filled.erase under, grown.process, grown.named + 1⟩) ∨
        ∃ place, filled.locationForFile path = .ok place ∧
          (write path contents).run session =
            .ok () ⟨FileTree.put (.file contents) place (filled.erase under), grown.process,
              grown.named + 1⟩)) := by
  rw [write_eq]
  cases prepared : (prepare path).run session with
  | error failure grown => exact Or.inl ⟨failure, grown, rfl, run_bind_error prepared⟩
  | ok _ grown =>
      refine Or.inr ⟨grown, rfl, ?_⟩
      rw [run_bind_ok prepared, run_bind_ok run_temporary]
      dsimp only
      generalize hiddenPath grown.process grown.named path = hidden
      cases free : grown.tree.locationForFile hidden with
      | error error =>
          exact Or.inl
            ⟨error, rfl, run_replace_stuck (run_fill_error free) (run_discard_error free)⟩
      | ok under =>
          refine Or.inr ⟨under, rfl, ?_⟩
          have still := locationForFile_put contents free
          have found : (FileTree.put (.file contents) under grown.tree).find? under =
              some (.file contents) := by
            rw [FileTree.find?_eq_file, entryAt?_put_of_locationForFile contents free,
              Function.update_self]
          cases target : (FileTree.put (.file contents) under grown.tree).locationForFile path with
          | error error =>
              exact Or.inl ⟨error, rfl, run_replace_error (run_fill_ok free)
                (run_rename_error still target) (run_discard_ok still)⟩
          | ok place =>
              exact Or.inr ⟨place, rfl, run_replace_ok (run_fill_ok free)
                (run_rename_ok still target found)⟩

/-! ## Preparing a directory -/

/-- The directories that may be added for a file. -/
def directories (path : Path) : List Location :=
  match path.parent? with
  | some parent => Path.trailFrom [] parent.segments.names
  | none => []

/-- The directory of a file is looked up as the file is, but for its name. -/
theorem parent?_spec {before : List (List Char)} {last : List Char}
    (named : path.segments = ⟨false, before ++ [last]⟩) (plain : Path.IsPlain last) :
    ∃ parent, path.parent? = some parent ∧
      (∀ station, station ∈ Path.trailFrom [] parent.segments.names ↔ station ∈ path.stations) ∧
      parent.exits ⊆ path.exits ∧
      (parent.text.isEmpty = true → ∀ station ∈ path.stations, station = []) := by
  rcases Path.trimmed_spec false before with ⟨silent, split, allSilent⟩
  have stations : ∀ station,
      station ∈ path.stations ↔ station ∈ Path.trailFrom [] (Path.trimmed false before) := by
    intro station
    rw [Path.stations, named, Path.stationsFrom_concat, split, Path.mem_trailFrom_silent allSilent,
      ← split]
  refine ⟨_, Path.parent?_eq named plain, ?_⟩
  by_cases nothing : Path.trimmed false before = []
  · rw [nothing] at stations ⊢
    refine ⟨fun station => ?_, List.nil_subset _, fun _ station isStation => ?_⟩
    · rw [stations]
      have trail : Path.trailFrom [] (Path.Segments.path ⟨false, []⟩).segments.names = [[], []] :=
        rfl
      rw [trail]
      simp [Path.trailFrom, Path.stationsFrom, Path.placeFrom?]
    · exact List.mem_singleton.mp ((stations station).mp isStation)
  · have segments := Path.segments_path (Path.trimmed_sound named nothing)
    rw [Path.exits, Path.exits, segments, named]
    refine ⟨fun station => (stations station).symm, ?_, fun empty => ?_⟩
    · have wider := Path.exitsFrom_append [] (Path.trimmed false before) (silent ++ [last])
      rwa [← List.append_assoc, ← split] at wider
    · rw [String.isEmpty_iff] at empty
      have isEmpty : Path.Segments.path ⟨false, Path.trimmed false before⟩ = ⟨""⟩ :=
        congrArg Path.mk empty
      rw [isEmpty] at segments
      exact absurd (congrArg (fun segments => segments.names.getLast?) segments).symm
        (Path.trimmed_getLast?_ne_nil false before)

theorem mem_directories {before : List (List Char)} {last : List Char} {station : Location}
    (named : path.segments = ⟨false, before ++ [last]⟩) (plain : Path.IsPlain last) :
    station ∈ directories path ↔ station ∈ path.stations := by
  rcases parent?_spec named plain with ⟨parent, isParent, stations, -⟩
  rw [directories, isParent]
  exact stations station

/-- Directories have been added in a region by a process. -/
structure Grows (region : List Location) (before after : Session) : Prop where
  process : after.process = before.process
  named : after.named = before.named
  tree : FileTree.GrownIn region before.tree after.tree

theorem Grows.refl (region : List Location) (session : Session) : Grows region session session :=
  ⟨rfl, rfl, FileTree.GrownIn.refl _ _⟩

theorem grows_ensureDirectory :
    Grows (Path.trailFrom [] path.segments.names) session
      (after (ensureDirectory path) session) := by
  have grows : FileTree.GrownIn (Path.trailFrom [] path.segments.names) session.tree
      (FileTree.createFrom false [] path.segments.names session.tree).2 := by
    cases session.tree with
    | file contents =>
        rw [FileTree.createFrom_of_file]
        exact FileTree.GrownIn.refl _ _
    | directory entries => exact FileTree.createFrom_grown _ _ rfl
  rw [after, run_ensureDirectory]
  by_cases held : session.tree.holds path = true
  · rw [if_pos held]
    exact Grows.refl _ _
  rw [if_neg held]
  by_cases rooted : path.isAbsolute = true
  · rw [if_pos rooted]
    exact Grows.refl _ _
  rw [if_neg rooted]
  rcases created : FileTree.createFrom false [] path.segments.names session.tree with
    ⟨_ | error, tree⟩
  · rw [created] at grows
    exact ⟨rfl, rfl, grows⟩
  · rw [created] at grows
    exact ⟨rfl, rfl, grows⟩

theorem grows_prepare (path : Path) (session : Session) :
    Grows (directories path) session (after (prepare path) session) := by
  rw [prepare, directories]
  cases path.parent? with
  | none => exact Grows.refl _ _
  | some parent =>
      by_cases relative : parent.text.isEmpty = true
      · simp only [relative, if_true]
        exact Grows.refl _ _
      · simp only [relative]
        exact grows_ensureDirectory

/-! ## Temporary names -/

/-- Whatever is written first under a hidden path has a name that shows the process. -/
def IsTemporary (process : Nat) (place : Location) : Prop :=
  ∃ parent number name, place = parent ++ [temporaryName process number name]

theorem slash_not_mem_toString (number : Nat) : '/' ∉ (toString number).toList := by
  intro slash
  rw [Nat.toString_eq_repr, Nat.toList_repr] at slash
  exact absurd (Nat.isDigit_of_mem_toDigits (by decide) (by decide) slash) (by decide)

theorem slash_not_mem_temporaryName (process number : Nat) {name : String}
    (no_slash : '/' ∉ name.toList) : '/' ∉ (temporaryName process number name).toList := by
  have first := slash_not_mem_toString process
  have second := slash_not_mem_toString number
  simp only [temporaryName, String.toList_append, List.mem_append, not_or]
  exact ⟨⟨⟨⟨⟨⟨by decide, no_slash⟩, by decide⟩, first⟩, by decide⟩, second⟩, by decide⟩

theorem isTemporary_of_hiddenPath {tree : FileTree} {process number : Nat} {under : Location}
    (free : tree.locationForFile (hiddenPath process number path) = .ok under) :
    IsTemporary process under := by
  rcases FileTree.locationForFile_eq_ok.mp free with
    ⟨before, last, parent, -, named, -, -, -, rfl, -⟩
  rcases path.withFileName_names
    (slash_not_mem_temporaryName process number path.slash_not_mem_fileName) with ⟨front, hidden⟩
  rw [hiddenPath, hidden] at named
  have isLast := (List.append_inj_right' named rfl)
  rw [List.singleton_inj] at isLast
  exact ⟨parent, number, _, by rw [← isLast, String.ofList_toList]⟩

/-- A temporary name begins with a dot. -/
theorem not_isTemporary {process : Nat} {place : Location}
    (begins : ∀ name ∈ place.getLast?, name.toList.head? ≠ some '.') :
    ¬ IsTemporary process place := by
  rintro ⟨parent, number, known, rfl⟩
  refine begins _ List.getLast?_concat ?_
  simp only [temporaryName, String.toList_append]
  rfl

/-! ## What has been written -/

/-- Files have been written by a process, the last one first, and directories added in a region.  A
file that was there under a temporary name may be gone; otherwise nothing has changed. -/
structure Written (process : Nat) (writes : List (Location × Contents)) (region : List Location)
    (before after : FileTree) : Prop where
  holds : ∀ place contents, ¬ IsTemporary process place → writes.lookup place = some contents →
    after.entryAt? place = some (.file contents)
  kept : ∀ place, writes.lookup place = none →
    after.entryAt? place = before.entryAt? place ∨
      IsTemporary process place ∧ after.entryAt? place = none ∨
      place ∈ region ∧ (before.entryAt? place = none ∨ IsTemporary process place) ∧
        after.entryAt? place = some .directory

namespace Written

variable {process : Nat} {writes later : List (Location × Contents)}
  {region further : List Location} {before middle done : FileTree} {place : Location}

theorem of_grownIn (grown : FileTree.GrownIn region before done) :
    Written process [] region before done where
  holds := fun _ _ _ known => nomatch known
  kept := by
    intro place _
    rcases grown place with same | ⟨inside, nothing, added⟩
    · exact Or.inl same
    · exact Or.inr (Or.inr ⟨inside, Or.inl nothing, added⟩)

theorem refl (process : Nat) (region : List Location) (tree : FileTree) :
    Written process [] region tree tree :=
  of_grownIn (FileTree.GrownIn.refl region tree)

theorem mono (wider : region ⊆ further) (written : Written process writes region before done) :
    Written process writes further before done where
  holds := written.holds
  kept := fun place untouched => (written.kept place untouched).imp_right
    (Or.imp_right fun added => ⟨wider added.1, added.2⟩)

theorem trans (first : Written process writes region before middle)
    (second : Written process later region middle done) :
    Written process (later ++ writes) region before done where
  holds := by
    intro place contents visible known
    rw [List.lookup_append] at known
    cases last : later.lookup place with
    | some newest =>
        rw [last] at known
        cases known
        exact second.holds place contents visible last
    | none =>
        rw [last, Option.none_or] at known
        have held := first.holds place contents visible known
        rcases second.kept place last with same | ⟨isTemporary, -⟩ | ⟨-, nothing | isTemporary, -⟩
        · rw [same, held]
        · exact absurd isTemporary visible
        · rw [held] at nothing
          cases nothing
        · exact absurd isTemporary visible
  kept := by
    intro place untouched
    rw [List.lookup_append, Option.or_eq_none_iff] at untouched
    rcases second.kept place untouched.1 with same | gone | ⟨inside, nothing | isTemporary, added⟩
    · rw [same]
      exact first.kept place untouched.2
    · exact Or.inr (Or.inl gone)
    · refine Or.inr (Or.inr ⟨inside, ?_, added⟩)
      rcases first.kept place untouched.2 with same | ⟨isTemporary, -⟩ | ⟨-, rest, -⟩
      · exact Or.inl (same ▸ nothing)
      · exact Or.inr isTemporary
      · exact rest
    · exact Or.inr (Or.inr ⟨inside, Or.inr isTemporary, added⟩)

theorem append (first : Written process writes region before middle)
    (second : Written process later further middle done) :
    Written process (later ++ writes) (region ++ further) before done :=
  (first.mono (List.subset_append_left _ _)).trans (second.mono (List.subset_append_right _ _))

/-- A file comes into being only by being written. -/
theorem origin (written : Written process writes region before done)
    (untouched : writes.lookup place = none) :
    done.contents? place = before.contents? place ∨
      IsTemporary process place ∧ done.contents? place = none := by
  rw [FileTree.contents?, FileTree.contents?]
  rcases written.kept place untouched with
    same | ⟨isTemporary, gone⟩ | ⟨-, nothing | isTemporary, added⟩
  · exact Or.inl (by rw [same])
  · exact Or.inr ⟨isTemporary, by rw [gone]⟩
  · exact Or.inl (by rw [nothing, added])
  · exact Or.inr ⟨isTemporary, by rw [added]⟩

theorem contents?_eq (written : Written process writes region before done)
    (visible : ¬ IsTemporary process place) :
    done.contents? place = (writes.lookup place).or (before.contents? place) := by
  cases known : writes.lookup place with
  | some contents =>
      exact FileTree.contents?_eq_some.mpr (written.holds place contents visible known)
  | none =>
      exact (written.origin known).resolve_right fun gone => visible gone.1

/-- A file has been taken away under a temporary name. -/
theorem of_erased (isTemporary : IsTemporary process place)
    (erased : done.entryAt? = Function.update before.entryAt? place none) :
    Written process [] region before done where
  holds := fun _ _ _ known => nomatch known
  kept := by
    intro other _
    rw [erased]
    by_cases here : other = place
    · rw [here, Function.update_self]
      exact Or.inr (Or.inl ⟨isTemporary, rfl⟩)
    · exact Or.inl (Function.update_of_ne here ..)

/-- A file has been written. -/
theorem of_put {contents : Contents}
    (put : done.entryAt? = Function.update before.entryAt? place (some (.file contents))) :
    Written process [(place, contents)] region before done where
  holds := by
    intro other found _ known
    rw [put]
    by_cases here : other = place
    · rw [here, List.lookup_cons_self] at known
      cases known
      rw [here, Function.update_self]
    · rw [List.lookup_cons, beq_eq_false_iff_ne.mpr here] at known
      cases known
  kept := by
    intro other untouched
    have different : other ≠ place := by
      rintro rfl
      rw [List.lookup_cons_self] at untouched
      cases untouched
    exact Or.inl (by rw [put, Function.update_of_ne different])

end Written

/-- A write is done as a whole or not at all. -/
theorem write_outcome (path : Path) (contents : Contents) (session : Session) :
    let done := after (write path contents) session
    done.process = session.process ∧
      ((∃ place, path.place? = some place ∧ (write path contents).run session = .ok () done ∧
          Written session.process [(place, contents)] (directories path) session.tree done.tree) ∨
        ∃ failure, (write path contents).run session = .error failure done ∧
          Written session.process [] (directories path) session.tree done.tree) := by
  have grows := grows_prepare path session
  rcases write_cases path contents session with
    ⟨failure, grown, prepared, ran⟩ | ⟨grown, prepared, stuck | ⟨under, free, rest⟩⟩
  · rw [after_error prepared] at grows
    rw [after_error ran]
    exact ⟨grows.process, Or.inr ⟨failure, ran, Written.of_grownIn grows.tree⟩⟩
  · rw [after_ok prepared] at grows
    rcases stuck with ⟨error, -, ran⟩
    rw [after_error ran]
    exact ⟨grows.process, Or.inr ⟨_, ran, Written.of_grownIn grows.tree⟩⟩
  · rw [after_ok prepared] at grows
    have isTemporary := isTemporary_of_hiddenPath free
    have grownWritten : Written session.process [] (directories path) session.tree grown.tree :=
      Written.of_grownIn grows.tree
    have still := locationForFile_put contents free
    have erased : ((FileTree.put (.file contents) under grown.tree).erase under).entryAt? =
        Function.update grown.tree.entryAt? under none := by
      rw [entryAt?_erase_of_locationForFile still, entryAt?_put_of_locationForFile contents free,
        Function.update_idem]
    rw [grows.process] at isTemporary
    have gone := grownWritten.trans (Written.of_erased isTemporary erased)
    rcases rest with ⟨error, -, ran⟩ | ⟨place, target, ran⟩
    · rw [after_error ran]
      exact ⟨grows.process, Or.inr ⟨_, ran, gone⟩⟩
    · rw [after_ok ran]
      refine ⟨grows.process, Or.inl
        ⟨place, (FileTree.place?_of_locationForFile target).1, ran, ?_⟩⟩
      exact gone.trans (Written.of_put
        (entryAt?_put_of_locationForFile contents (locationForFile_erase target still)))

theorem write_ok {done : Session} (ran : (write path contents).run session = .ok () done) :
    done.process = session.process ∧ ∃ place, path.place? = some place ∧
      Written session.process [(place, contents)] (directories path) session.tree done.tree := by
  rcases write_outcome path contents session with
    ⟨process, ⟨place, leads, -, written⟩ | ⟨failure, failed, -⟩⟩
  · rw [after_ok ran] at process written
    exact ⟨process, place, leads, written⟩
  · rw [ran] at failed
    cases failed

theorem write_error {failure : FileFailure} {done : Session}
    (ran : (write path contents).run session = .error failure done) :
    done.process = session.process ∧
      Written session.process [] (directories path) session.tree done.tree := by
  rcases write_outcome path contents session with
    ⟨process, ⟨place, -, ok, -⟩ | ⟨_, -, written⟩⟩
  · rw [ran] at ok
    cases ok
  · rw [after_error ran] at process written
    exact ⟨process, written⟩

end FileAction
end Hookify
