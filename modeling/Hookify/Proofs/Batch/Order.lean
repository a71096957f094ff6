import Hookify.Proofs.Batch.Walk
import Hookify.Proofs.Batch.Writes
import Hookify.Proofs.Files.Ahead

namespace Hookify

/-!
# The order of a batch

The conversions of a batch share the files, so what one of them does could
depend on those before it.  It does not if they keep clear of each other: no file
is written to a place that another conversion looks at or comes past on its way,
and directories that are left by `..` are there from the start.  Then every
conversion gives the result that it gives by itself, and leaves the files that
it leaves by itself, whatever has been converted before and whether that has
failed or not.

The one thing that does tell the order is the number in a temporary name, if it
is a temporary name that a failure is about.
-/

open FileAction Hookify.Path

/-! ## One conversion -/

section Conversion

variable {process : Nat} {others added : Location → Prop} {session : Session} {input : Path}
  {source : Location} {contents : Contents}

theorem steady_pure {Result : Type} (result : Result) :
    Steady process others added (pure result) session :=
  ⟨.ok result, fun other isProcess ahead => ⟨other, .ok result other, isProcess, ahead⟩⟩

/-- What is the same on all trees that are ahead can be told from any of them. -/
theorem steady_look {Result : Type} {tell : FileTree → Result}
    (same : ∀ tree, Ahead process others added session.tree tree → tell tree = tell session.tree) :
    Steady process others added (do return tell (<- get).tree) session := by
  refine ⟨.ok (tell session.tree), fun other isProcess ahead => ⟨other, ?_, isProcess, ahead⟩⟩
  rw [← same other.tree ahead]
  exact .ok _ other

theorem steady_readText (followed : session.tree.follow input = .ok source)
    (held : session.tree.entryAt? source = some (.file contents))
    (clear : ∀ place ∈ input.trail, ¬ others place) :
    Steady process others added (readText input) session := by
  have got := FileTree.get_eq_ok.mpr ⟨source, followed, FileTree.find?_eq_file.mpr held⟩
  have ran := run_readText input session
  rw [got] at ran
  cases contents with
  | text text =>
      refine ⟨.ok text, fun other isProcess ahead => ⟨other, ?_, isProcess, ?_⟩⟩
      · rw [run_readText, ahead.get_file clear followed held]
        exact .ok text other
      · rwa [after_ok ran]
  | binary bytes =>
      refine ⟨.error (.known ⟨input, .notText⟩), fun other isProcess ahead =>
        ⟨other, ?_, isProcess, ?_⟩⟩
      · rw [run_readText, ahead.get_file clear followed held]
        exact .error (.known ⟨input, .notText⟩) 0 other
      · rwa [after_error ran]

theorem Writable.of_directories {tree further : FileTree} {path : Path}
    (writable : Writable process others added tree path)
    (stay : ∀ place, tree.entryAt? place = some .directory →
      further.entryAt? place = some .directory) :
    Writable process others added further path where
  named := writable.named
  clear := writable.clear
  own := writable.own
  left := fun station isExit => stay station (writable.left station isExit)

theorem steady_writeStylesheet {output : Path} {stylesheet : Option Output.Stylesheet}
    (isProcess : session.process = process)
    (alone : Ahead process others added session.tree session.tree)
    (writable : ∀ sheet, stylesheet = some sheet →
      Writable process others added session.tree (output.withFileName sheet.name)) :
    Steady process others added (writeStylesheet output stylesheet) session := by
  cases stylesheet with
  | none => exact steady_pure []
  | some sheet =>
      exact steady_bind isProcess alone (steady_write _ isProcess alone (writable sheet rfl))
        fun _ _ _ _ _ => steady_pure _

theorem writeStylesheet_directory (output : Path) (stylesheet : Option Output.Stylesheet)
    (session : Session) {place : Location} (held : session.tree.entryAt? place = some .directory) :
    (after (writeStylesheet output stylesheet) session).tree.entryAt? place = some .directory := by
  cases stylesheet with
  | none => exact held
  | some sheet =>
      rw [writeStylesheet, after_bind_pure]
      exact write_directory _ _ session held

/-- What there is to tell depends on which of the loaded files are there. -/
theorem Conversion.written_congr (conversion : Conversion) {input output root : Path}
    {sheets : List Path} {tree other : FileTree}
    (same : ∀ resource ∈ conversion.component.resources,
      tree.holdsFile resource.path = other.holdsFile resource.path) :
    conversion.written input output root sheets tree =
      conversion.written input output root sheets other := by
  have found :
      conversion.component.resources.filter (fun resource => tree.holdsFile resource.path) =
        conversion.component.resources.filter fun resource => other.holdsFile resource.path :=
    List.filter_congr same
  have absent :
      conversion.component.resources.filter (fun resource => ! tree.holdsFile resource.path) =
        conversion.component.resources.filter fun resource => ! other.holdsFile resource.path :=
    List.filter_congr fun resource isResource => by rw [same resource isResource]
  rw [written, written, found, absent]

/-- A conversion ends in the same way on all trees that are ahead if its source and what that loads
are clear of what others write to, and its targets are. -/
theorem steady_writeConversion {settings : Settings} {output : Path} (root : Path)
    (isProcess : session.process = process)
    (alone : Ahead process others added session.tree session.tree)
    (followed : session.tree.follow input = .ok source)
    (held : session.tree.entryAt? source = some (.file contents))
    (clear : ∀ place ∈ input.trail, ¬ others place)
    (writable : ∀ text, contents = .text text →
      ∀ target ∈ ((Document.new text input).convert settings).targets output,
        Writable process others added session.tree target)
    (loads : ∀ text, contents = .text text →
      ∀ resource ∈ ((Document.new text input).convert settings).component.resources,
        (∀ place ∈ resource.path.trail, ¬ others place) ∧
        ∀ station ∈ resource.path.exits, session.tree.entryAt? station = some .directory) :
    Steady process others added (writeConversion settings input output root) session := by
  rw [writeConversion]
  refine steady_bind isProcess alone (steady_readText followed held clear)
    fun text done read _ _ => ?_
  have got := FileTree.get_eq_ok.mpr ⟨source, followed, FileTree.find?_eq_file.mpr held⟩
  rw [run_readText, got] at read
  cases contents with
  | binary bytes => cases read
  | text other =>
  cases read
  have writable := writable text rfl
  have loads := loads text rfl
  dsimp only
  generalize (Document.new text input).convert settings = conversion at writable loads
  refine steady_bind isProcess alone
    (steady_write _ isProcess alone (writable _ List.mem_cons_self))
    fun _ middle component isProcess alone => ?_
  have stay : ∀ place, session.tree.entryAt? place = some .directory →
      middle.tree.entryAt? place = some .directory := by
    intro place isDirectory
    have stays := write_directory output (.text conversion.generated.code) session isDirectory
    rwa [after_ok component] at stays
  refine steady_bind isProcess alone (steady_writeStylesheet isProcess alone fun sheet styled =>
    (writable (output.withFileName sheet.name) ?_).of_directories stay)
    fun sheets last styles isProcess alone => ?_
  · exact List.mem_cons_of_mem _ (Option.mem_toList.mpr (by rw [styled, Option.map_some]))
  have stayLast : ∀ place, middle.tree.entryAt? place = some .directory →
      last.tree.entryAt? place = some .directory := by
    intro place isDirectory
    have stays := writeStylesheet_directory output conversion.generated.stylesheet middle
      isDirectory
    rwa [after_ok styles] at stays
  refine steady_look fun tree ahead => conversion.written_congr fun resource isResource => ?_
  rcases loads resource isResource with ⟨clear, left⟩
  exact ahead.holdsFile_eq clear fun station isExit =>
    stayLast station (stay station (left station isExit))

end Conversion

namespace Batch

variable {batch : Batch} {start : Session} {files rest before : List Path} {file : Path}

/-! ## Conversions that keep clear of each other -/

/-- The conversion of a file whose text is in a tree. -/
def conversion? (batch : Batch) (tree : FileTree) (file : Path) : Option Conversion :=
  match tree.get file with
  | .ok (.file (.text text)) => some ((Document.new text file).convert batch.settings)
  | _ => none

/-- The paths that the conversion of a file writes to. -/
def attempts (batch : Batch) (tree : FileTree) (file : Path) : List Path :=
  ((batch.conversion? tree file).map fun conversion =>
    conversion.targets (batch.output file)).getD []

/-- The paths of the files that a page loads. -/
def loads (batch : Batch) (tree : FileTree) (file : Path) : List Path :=
  ((batch.conversion? tree file).map fun conversion =>
    conversion.component.resources.map (·.path)).getD []

/-- The conversions of some files keep clear of each other. -/
structure Independent (batch : Batch) (start : Session) (files : List Path) : Prop where
  /-- No file is written to a place that another conversion looks at or comes past. -/
  apart : ∀ writer ∈ files, ∀ other ∈ files, writer ≠ other →
    ∀ target ∈ batch.attempts start.tree writer,
      ∀ path ∈ other :: (batch.attempts start.tree other ++ batch.loads start.tree other),
        ∀ place ∈ path.trail, target.place? ≠ some place
  /-- Every path that is written to is relative and ends in a name. -/
  named : ∀ writer ∈ files, ∀ target ∈ batch.attempts start.tree writer,
    target.isAbsolute = false ∧ ∀ last ∈ target.segments.names.getLast?, IsPlain last
  /-- Every directory that is left by `..` is there from the start. -/
  left : ∀ other ∈ files,
    ∀ path ∈ batch.attempts start.tree other ++ batch.loads start.tree other,
      ∀ station ∈ path.exits, start.tree.entryAt? station = some .directory
  /-- Temporary names are not in use, -/
  unused : ∀ place, IsTemporary start.process place → start.tree.entryAt? place = none
  /-- nor do any paths that are written to come past them. -/
  visible : ∀ writer ∈ files, ∀ target ∈ batch.attempts start.tree writer,
    ∀ place ∈ target.trail, ¬ IsTemporary start.process place

/-- The places that the conversions of some files write to. -/
def WrittenBy (batch : Batch) (tree : FileTree) (writers : List Path) (place : Location) : Prop :=
  ∃ writer ∈ writers, ∃ target ∈ batch.attempts tree writer, target.place? = some place

/-- The places where the conversions of some files may add directories. -/
def AddedBy (batch : Batch) (tree : FileTree) (writers : List Path) (place : Location) : Prop :=
  ∃ writer ∈ writers, ∃ target ∈ batch.attempts tree writer, place ∈ directories target

theorem WrittenBy.mono {tree : FileTree} {place : Location} (wider : before ⊆ rest)
    (written : batch.WrittenBy tree before place) : batch.WrittenBy tree rest place := by
  rcases written with ⟨writer, isWriter, writes⟩
  exact ⟨writer, wider isWriter, writes⟩

theorem AddedBy.mono {tree : FileTree} {place : Location} (wider : before ⊆ rest)
    (added : batch.AddedBy tree before place) : batch.AddedBy tree rest place := by
  rcases added with ⟨writer, isWriter, adds⟩
  exact ⟨writer, wider isWriter, adds⟩

/-- The files are there. -/
def Found (tree : FileTree) (files : List Path) : Prop :=
  ∀ file ∈ files, ∃ source contents, tree.follow file = .ok source ∧
    tree.entryAt? source = some (.file contents)

namespace Independent

theorem alone (independent : batch.Independent start files) (found : Found start.tree files)
    (isFile : file ∈ files) (others added : Location → Prop) :
    Ahead start.process others added start.tree start.tree where
  root := by
    rcases found file isFile with ⟨source, contents, followed, held⟩
    rcases segments_of_file followed held with ⟨_, last, parent, -, -, -, rfl⟩
    have held : start.tree.entryAt? (parent ++ [last]) ≠ none := by rw [held]; exact nofun
    exact FileTree.directory_above List.nil_prefix (by simp) held
  agree := fun place _ => Or.inl rfl
  visible := fun place isTemporary =>
    ⟨independent.unused place isTemporary, independent.unused place isTemporary⟩

theorem segments (independent : batch.Independent start files) (isFile : file ∈ files)
    {target : Path} (isTarget : target ∈ batch.attempts start.tree file) :
    ∃ before last, target.segments = ⟨false, before ++ [last]⟩ ∧ IsPlain last := by
  rcases independent.named file isFile target isTarget with ⟨relative, plain⟩
  rcases List.eq_nil_or_concat target.segments.names with none | ⟨before, last, named⟩
  · exact absurd none (segments_sound target).some_name
  · rw [List.concat_eq_append] at named
    refine ⟨before, last, ?_, plain last ?_⟩
    · rw [← named, ← relative, isAbsolute]
    · rw [named]
      exact List.getLast?_concat

/-- No file is written to a place that the conversion of another file looks at. -/
theorem clear (independent : batch.Independent start files) (isFile : file ∈ files)
    (areFiles : rest ⊆ files) (notIn : file ∉ rest) {path : Path}
    (isPath : path ∈ file :: (batch.attempts start.tree file ++ batch.loads start.tree file)) :
    ∀ place ∈ path.trail, ¬ batch.WrittenBy start.tree rest place := by
  rintro place inside ⟨writer, isWriter, target, isTarget, leads⟩
  have different : writer ≠ file := by
    rintro rfl
    exact notIn isWriter
  exact independent.apart writer (areFiles isWriter) file isFile different target isTarget path
    isPath place inside leads

theorem writable (independent : batch.Independent start files) (isFile : file ∈ files)
    (areFiles : rest ⊆ files) (notIn : file ∉ rest) {target : Path}
    (isTarget : target ∈ batch.attempts start.tree file) :
    Writable start.process (batch.WrittenBy start.tree rest) (batch.AddedBy start.tree rest)
      start.tree target where
  named := independent.segments isFile isTarget
  clear := fun place inside =>
    ⟨independent.clear isFile areFiles notIn
      (List.mem_cons_of_mem _ (List.mem_append_left _ isTarget)) place inside,
      independent.visible file isFile target isTarget place inside⟩
  own := by
    rintro place leads ⟨writer, isWriter, other, isOther, inside⟩
    have different : file ≠ writer := by
      rintro rfl
      exact notIn isWriter
    rcases independent.segments (areFiles isWriter) isOther with ⟨_, _, named, plain⟩
    exact independent.apart file isFile writer (areFiles isWriter) different target isTarget other
      (List.mem_cons_of_mem _ (List.mem_append_left _ isOther)) place
      (List.mem_append_left _ ((mem_directories named plain).mp inside)) leads
  left := independent.left file isFile target (List.mem_append_left _ isTarget)

end Independent

theorem conversion?_eq_some {tree : FileTree} {source : Location} {text : String}
    (followed : tree.follow file = .ok source)
    (held : tree.entryAt? source = some (.file (.text text))) :
    batch.conversion? tree file = some ((Document.new text file).convert batch.settings) := by
  rw [conversion?, FileTree.get_eq_ok.mpr ⟨source, followed, FileTree.find?_eq_file.mpr held⟩]

/-- The conversion of a file ends in the same way after any others. -/
theorem steady_action (independent : batch.Independent start files)
    (found : Found start.tree files) (isFile : file ∈ files) (areFiles : rest ⊆ files)
    (notIn : file ∉ rest) :
    Steady start.process (batch.WrittenBy start.tree rest) (batch.AddedBy start.tree rest)
      (batch.action file) start := by
  rcases found file isFile with ⟨source, contents, followed, held⟩
  refine steady_writeConversion batch.outputRoot rfl (independent.alone found isFile _ _) followed
    held (independent.clear isFile areFiles notIn List.mem_cons_self) ?_ ?_
  · rintro text rfl target isTarget
    refine independent.writable isFile areFiles notIn ?_
    rw [attempts, conversion?_eq_some followed held]
    exact isTarget
  · rintro text rfl resource isResource
    have isLoaded : resource.path ∈ batch.loads start.tree file := by
      rw [loads, conversion?_eq_some followed held]
      exact List.mem_map_of_mem isResource
    exact ⟨independent.clear isFile areFiles notIn
        (List.mem_cons_of_mem _ (List.mem_append_right _ isLoaded)),
      independent.left file isFile resource.path (List.mem_append_right _ isLoaded)⟩

/-! ## One conversion after the other -/

theorem convertAll_concat (batch : Batch) (before : List Path) (file : Path) (session : Session) :
    (batch.convertAll (before ++ [file]) session).2 =
      (batch.convert file (batch.convertAll before session).2).2 := by
  rw [convertAll_append]
  rfl

/-- What a conversion does after others that have kept clear of it. -/
theorem convert_targets (independent : batch.Independent start files)
    (found : Found start.tree files) (isFile : file ∈ files) (areFiles : rest ⊆ files)
    (notIn : file ∉ rest) {session : Session} (isProcess : session.process = start.process)
    (ahead : Ahead start.process (batch.WrittenBy start.tree rest)
      (batch.AddedBy start.tree rest) start.tree session.tree) :
    (batch.convert file session).2.process = start.process ∧ ∃ writes,
      WritesTo (batch.attempts start.tree file) writes ∧
      Written start.process writes ((batch.attempts start.tree file).flatMap directories)
        session.tree (batch.convert file session).2.tree := by
  rcases found file isFile with ⟨source, contents, followed, held⟩
  have clear := independent.clear isFile areFiles notIn List.mem_cons_self
  have read := run_readText file session
  rw [ahead.get_file clear followed held] at read
  rw [convert_session, ← isProcess]
  cases contents with
  | text text =>
      rcases writeConversion_targets batch.outputRoot read with ⟨process, writes, targets, written⟩
      rw [attempts, conversion?_eq_some followed held]
      exact ⟨process, writes, targets, written⟩
  | binary bytes =>
      rw [action, writeConversion, after_bind_error read]
      exact ⟨rfl, [], WritesTo.nil _, Written.refl _ _ _⟩

/-- Whatever has been converted, the tree is ahead of what it was at first by what that has
written. -/
theorem convertAll_ahead (independent : batch.Independent start files)
    (found : Found start.tree files) (isFile : file ∈ files) (areFiles : before ⊆ files)
    (different : before.Nodup) :
    (batch.convertAll before start).2.process = start.process ∧
      Ahead start.process (batch.WrittenBy start.tree before) (batch.AddedBy start.tree before)
        start.tree (batch.convertAll before start).2.tree := by
  induction before using List.reverseRecOn with
  | nil => exact ⟨rfl, independent.alone found isFile _ _⟩
  | append_singleton before last ih =>
      have areBefore := (List.append_subset.mp areFiles).1
      have isLast := (List.append_subset.mp areFiles).2 (List.mem_singleton_self last)
      rcases List.nodup_append.mp different with ⟨differentBefore, -, apart⟩
      have notIn : last ∉ before := fun isBefore =>
        apart last isBefore last (List.mem_singleton_self _) rfl
      rcases ih areBefore differentBefore with ⟨isProcess, ahead⟩
      rcases convert_targets independent found isLast areBefore notIn isProcess ahead with
        ⟨isProcessToo, writes, targets, written⟩
      rw [convertAll_concat]
      have wider : before ⊆ before ++ [last] := List.subset_append_left _ _
      refine ⟨isProcessToo, (ahead.mono (fun _ => WrittenBy.mono wider)
        fun _ => AddedBy.mono wider).of_written written ?_ ?_⟩
      · intro place touched
        rcases (targets.lookup_cases place).resolve_left touched with ⟨target, isTarget, leads⟩
        exact ⟨⟨last, List.mem_append_right _ (List.mem_singleton_self _), target, isTarget,
          leads⟩, independent.visible last isLast target isTarget place
            (List.mem_append_right _ (Option.mem_toList.mpr leads))⟩
      · intro place inside
        rcases List.mem_flatMap.mp inside with ⟨target, isTarget, inside⟩
        rcases independent.segments isLast isTarget with ⟨_, _, named, plain⟩
        exact ⟨⟨last, List.mem_append_right _ (List.mem_singleton_self _), target, isTarget,
          inside⟩, independent.visible last isLast target isTarget place
            (List.mem_append_left _ ((mem_directories named plain).mp inside))⟩

/-! ## Results -/

/-- What is told about a conversion that ends in some way. -/
def told (batch : Batch) (file : Path) (process number : Nat) :
    Except Trouble WrittenConversion → FileSummary × List Copy
  | .ok result =>
      (⟨(batch.root.below? file).getD file,
        .converted result.output result.component result.warnings, result.stats⟩, result.copies)
  | .error trouble =>
      (⟨(batch.root.below? file).getD file, .failed (trouble.failure process number).message, {}⟩,
        [])

theorem convert_told {process : Nat} {session done : Session}
    {outcome : Except Trouble WrittenConversion}
    (ends : Ends process ((batch.action file).run session) outcome done) :
    ∃ number, batch.convert file session = (batch.told file process number outcome, done) := by
  cases outcome with
  | ok result => exact ⟨0, convert_ok ends.of_ok⟩
  | error trouble =>
      rcases ends.of_error with ⟨number, ran⟩
      exact ⟨number, convert_error ran⟩

/-- Two results of a file are the same, but for the number in a temporary name that could not be
used. -/
inductive Alike (process : Nat) : FileSummary × List Copy → FileSummary × List Copy → Prop where
  | same (result : FileSummary × List Copy) : Alike process result result
  | hidden (relative path : Path) (error : FileError) (first second : Nat) :
      Alike process
        (⟨relative, .failed (FileFailure.message ⟨hiddenPath process first path, error⟩), {}⟩, [])
        (⟨relative, .failed (FileFailure.message ⟨hiddenPath process second path, error⟩), {}⟩, [])

theorem told_alike (process first second : Nat) (outcome : Except Trouble WrittenConversion) :
    Alike process (batch.told file process first outcome)
      (batch.told file process second outcome) := by
  rcases outcome with (failure | ⟨path, error⟩) | result
  · exact .same _
  · exact .hidden _ path error first second
  · exact .same _

theorem mem_zip_convertAll {order : List Path} {session : Session}
    {result : FileSummary × List Copy}
    (isResult : (file, result) ∈ order.zip (batch.convertAll order session).1) :
    ∃ before rest, order = before ++ file :: rest ∧
      result = (batch.convert file (batch.convertAll before session).2).1 := by
  induction order generalizing session with
  | nil => cases isResult
  | cons first order ih =>
      rw [convertAll_cons, List.zip_cons_cons] at isResult
      rcases List.mem_cons.mp isResult with here | later
      · cases here
        exact ⟨[], order, rfl, rfl⟩
      · rcases ih later with ⟨before, rest, rfl, same⟩
        exact ⟨first :: before, rest, rfl, same⟩

/-- The result of a file is the same in every order, but for the number in a temporary name. -/
theorem result_told (independent : batch.Independent start files) (found : Found start.tree files)
    (isFile : file ∈ files) :
    ∃ outcome, ∀ (order : List Path) (result : FileSummary × List Copy), order.Nodup →
      order ⊆ files → (file, result) ∈ order.zip (batch.convertAll order start).1 →
      ∃ number, result = batch.told file start.process number outcome := by
  have areOthers : files.filter (· ≠ file) ⊆ files := List.filter_subset_self files
  have notIn : file ∉ files.filter (· ≠ file) := by simp
  rcases steady_action independent found isFile areOthers notIn with ⟨outcome, ends⟩
  refine ⟨outcome, fun order result once areFiles isResult => ?_⟩
  rcases mem_zip_convertAll isResult with ⟨before, rest, rfl, rfl⟩
  rcases List.nodup_append.mp once with ⟨beforeOnce, -, apart⟩
  have areBefore := (List.append_subset.mp areFiles).1
  have inOthers : before ⊆ files.filter (· ≠ file) := by
    intro writer isBefore
    have different : writer ≠ file := apart writer isBefore file List.mem_cons_self
    exact List.mem_filter.mpr ⟨areBefore isBefore, by simpa using different⟩
  rcases convertAll_ahead independent found isFile areBefore beforeOnce with ⟨isProcess, ahead⟩
  have aheadOthers := ahead.mono (fun _ => WrittenBy.mono inOthers) fun _ => AddedBy.mono inOthers
  rcases ends _ isProcess aheadOthers with ⟨done, endsHere, -⟩
  rcases convert_told endsHere with ⟨number, same⟩
  exact ⟨number, by rw [same]⟩

/-! ## Files -/

/-- After some conversions, every place that one of them writes to holds what it holds after that
one alone, and all other places hold what they held before. -/
theorem convertAll_contents (independent : batch.Independent start files)
    (found : Found start.tree files) (areFiles : before ⊆ files) (different : before.Nodup)
    (place : Location) :
    (∀ file ∈ before, batch.WrittenBy start.tree [file] place →
      (batch.convertAll before start).2.tree.contents? place =
        (batch.convert file start).2.tree.contents? place) ∧
    (¬ batch.WrittenBy start.tree before place →
      (batch.convertAll before start).2.tree.contents? place = start.tree.contents? place) := by
  induction before using List.reverseRecOn with
  | nil => exact ⟨nofun, fun _ => rfl⟩
  | append_singleton before last ih =>
      have areBefore := (List.append_subset.mp areFiles).1
      have isLast := (List.append_subset.mp areFiles).2 (List.mem_singleton_self last)
      rcases List.nodup_append.mp different with ⟨differentBefore, -, apart⟩
      have notIn : last ∉ before := fun isBefore =>
        apart last isBefore last (List.mem_singleton_self _) rfl
      rcases ih areBefore differentBefore with ⟨written, kept⟩
      rcases convertAll_ahead independent found isLast areBefore differentBefore with
        ⟨isProcess, ahead⟩
      rcases convert_targets independent found isLast areBefore notIn isProcess ahead with
        ⟨-, writes, targets, change⟩
      have untouched : ¬ batch.WrittenBy start.tree [last] place →
          (batch.convert last (batch.convertAll before start).2).2.tree.contents? place =
            (batch.convertAll before start).2.tree.contents? place := by
        intro notLast
        have nothing : writes.lookup place = none :=
          (targets.lookup_cases place).resolve_right fun ⟨target, isTarget, leads⟩ =>
            notLast ⟨last, List.mem_singleton_self _, target, isTarget, leads⟩
        rcases change.origin nothing with same | ⟨isTemporary, gone⟩
        · exact same
        · rw [gone, FileTree.contents?, (ahead.visible place isTemporary).2]
      rw [convertAll_concat]
      constructor
      · intro file inside isWritten
        rcases List.mem_append.mp inside with isBefore | isLastFile
        · rw [untouched, written file isBefore isWritten]
          rintro ⟨_, isSelf, target, isTarget, leads⟩
          rcases isWritten with ⟨_, isOwn, own, isOwnTarget, leadsToo⟩
          rw [List.mem_singleton.mp isSelf] at isTarget
          rw [List.mem_singleton.mp isOwn] at isOwnTarget
          have lastNe : last ≠ file := by
            rintro rfl
            exact notIn isBefore
          exact independent.apart last isLast file (areBefore isBefore) lastNe target isTarget own
            (List.mem_cons_of_mem _ (List.mem_append_left _ isOwnTarget)) place
            (List.mem_append_right _ (Option.mem_toList.mpr leadsToo)) leads
        · rw [List.mem_singleton.mp isLastFile] at isWritten ⊢
          rcases steady_action independent found isLast areBefore notIn with ⟨outcome, ends⟩
          rcases ends _ isProcess ahead with ⟨done, endsHere, -, aheadDone⟩
          rw [convert_session, convert_session, endsHere.after_eq]
          rcases isWritten with ⟨_, isOwn, own, isOwnTarget, leads⟩
          rw [List.mem_singleton.mp isOwn] at isOwnTarget
          exact aheadDone.contents?_eq (independent.clear isLast areBefore notIn
            (List.mem_cons_of_mem _ (List.mem_append_left _ isOwnTarget)) place
            (List.mem_append_right _ (Option.mem_toList.mpr leads)))
      · intro nobody
        rw [untouched, kept]
        · exact fun written => nobody (written.mono (List.subset_append_left _ _))
        · exact fun written => nobody (written.mono (List.subset_append_right _ _))

/-- The files of a batch are there. -/
theorem found_files (wellNamed : start.tree.WellNamed)
    (walked : batch.files? start.tree = some files) : Found start.tree files := by
  intro file isFile
  rcases FileTree.mem_batchFiles? wellNamed walked isFile with
    ⟨location, names, last, contents, followed, areNames, rfl, held, -⟩
  exact ⟨_, contents, follow_descend followed areNames (by rw [held]; exact nofun), held⟩

/-- Two scripts, and a file that is no directory. -/
def blockedScripts : Session :=
  let script := FileTree.file (.text "go();")
  ⟨.directory [("a.js", script), ("b.js", script), ("f", .file (.text "x"))], 0, 0⟩

/-- A batch with a directory of its own to write to. -/
def scriptBatch : Batch :=
  ⟨⟨"."⟩, ⟨"out"⟩, {}⟩

/-- The scripts of the batch. -/
def scriptFiles : List Path :=
  [⟨"./a.js"⟩, ⟨"./b.js"⟩]

theorem scriptFiles_walked : scriptBatch.files? blockedScripts.tree = some scriptFiles := by
  have followed : blockedScripts.tree.follow ⟨"."⟩ = .ok [] := by decide +kernel
  refine FileTree.batchFiles?_of_sorted followed rfl ?_ ?_
  · decide +kernel
  · decide +kernel

theorem blockedScripts_wellNamed : blockedScripts.tree.WellNamed := by
  refine .directory _ (by decide) (by decide +kernel) ?_
  exact List.forall_mem_cons.mpr ⟨.file _,
    List.forall_mem_cons.mpr ⟨.file _, List.forall_mem_singleton.mpr (.file _)⟩⟩

/-- Each script has its component, and loads nothing. -/
theorem scriptFiles_attempts :
    ∀ file ∈ scriptFiles,
      scriptBatch.attempts blockedScripts.tree file = [scriptBatch.output file] ∧
      scriptBatch.loads blockedScripts.tree file = [] := by
  decide +kernel

theorem blockedScripts_unused {place : Location}
    (isTemporary : IsTemporary blockedScripts.process place) :
    blockedScripts.tree.entryAt? place = none := by
  by_contra held
  cases place with
  | nil => exact not_isTemporary (by simp) isTemporary
  | cons name rest =>
      rw [blockedScripts, FileTree.entryAt?_directory_cons] at held
      rcases Option.ne_none_iff_exists'.mp held with ⟨entry, isEntry⟩
      rcases Option.bind_eq_some_iff.mp isEntry with ⟨child, found, isEntry⟩
      have isFile : ∃ contents, child = .file contents ∧ name.toList.head? ≠ some '.' := by
        have inside := Walk.mem_of_lookup found
        simp only [List.mem_cons, List.not_mem_nil, or_false, Prod.mk.injEq] at inside
        rcases inside with ⟨rfl, rfl⟩ | ⟨rfl, rfl⟩ | ⟨rfl, rfl⟩
        all_goals exact ⟨_, rfl, by decide⟩
      rcases isFile with ⟨contents, rfl, begins⟩
      cases rest with
      | nil =>
          refine not_isTemporary (fun last isLast => ?_) isTemporary
          cases isLast
          exact begins
      | cons next rest => cases isEntry

/-- The paths of the components are plain, and apart. -/
theorem scriptFiles_outputs :
    ∀ writer ∈ scriptFiles, let target := scriptBatch.output writer
      (target.isAbsolute = false ∧ ∀ last ∈ target.segments.names.getLast?, IsPlain last) ∧
      target.exits = [] ∧
      (∀ place ∈ target.trail, ∀ name ∈ place.getLast?, name.toList.head? ≠ some '.') ∧
      ∀ other ∈ scriptFiles, writer ≠ other → ∀ path ∈ [other, scriptBatch.output other],
        ∀ place ∈ path.trail, target.place? ≠ some place := by
  decide +kernel

theorem scripts_independent : scriptBatch.Independent blockedScripts scriptFiles where
  apart := by
    intro writer isWriter other isOther different target isTarget path isPath
    rw [(scriptFiles_attempts writer isWriter).1, List.mem_singleton] at isTarget
    rw [(scriptFiles_attempts other isOther).1, (scriptFiles_attempts other isOther).2,
      List.append_nil] at isPath
    rw [isTarget]
    exact (scriptFiles_outputs writer isWriter).2.2.2 other isOther different path isPath
  named := by
    intro writer isWriter target isTarget
    rw [(scriptFiles_attempts writer isWriter).1, List.mem_singleton] at isTarget
    rw [isTarget]
    exact (scriptFiles_outputs writer isWriter).1
  left := by
    intro other isOther path isPath station isExit
    rw [(scriptFiles_attempts other isOther).1, (scriptFiles_attempts other isOther).2,
      List.append_nil, List.mem_singleton] at isPath
    rw [isPath, (scriptFiles_outputs other isOther).2.1] at isExit
    cases isExit
  unused := fun _ => blockedScripts_unused
  visible := by
    intro writer isWriter target isTarget place inside
    rw [(scriptFiles_attempts writer isWriter).1, List.mem_singleton] at isTarget
    rw [isTarget] at inside
    exact not_isTemporary ((scriptFiles_outputs writer isWriter).2.2.1 place inside)

end Batch
end Hookify
