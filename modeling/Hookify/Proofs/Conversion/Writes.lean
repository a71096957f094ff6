import Hookify.Conversion.Basic
import Hookify.Conversion.Write
import Hookify.Proofs.Component.Frames
import Hookify.Proofs.Files.Paths
import Hookify.Proofs.Files.Writes
import Hookify.Proofs.Pass.Actions

namespace Hookify

/-!
# What a conversion leaves behind

A conversion reads its input, writes the component and then the stylesheet, if
there is one.  Each of the two writes is done as a whole or not at all, but there
is nothing that holds them together: if the stylesheet cannot be written, the
component stays.  That is the only way in which a conversion that fails can have
touched a file.
-/

/-!
## The name of a stylesheet

No pass changes the name that a component has for its source, so the stylesheet
of a page is named after the file of the page.
-/

theorem source_runAll (facts : Facts) (draft : Draft) :
    (Stage.runAll facts draft).source = draft.source := by
  rw [Stage.runAll]
  induction Stage.all generalizing draft with
  | nil => rfl
  | cons stage stages ih =>
      rw [List.foldl_cons, ih]
      exact (Pass.runs_run facts stage draft).preserves (fun after => after.source = draft.source)
        (fun _ same => (Draft.perform_source _ _).trans same) rfl

namespace Document

theorem source_convert (document : Document) (settings : Settings) :
    (document.convert settings).component.source = document.fileName := by
  have drafted : (document.draft settings).source = document.fileName := by
    rw [draft]
    cases document.kind <;> rfl
  show ((document.draft settings).readScript document.script).source = document.fileName
  rw [Draft.readScript]
  split
  · exact drafted
  · rw [source_runAll, drafted]

/-- A stylesheet is named after the file whose styles it holds. -/
theorem stylesheet_name {text : String} {input : Path} {settings : Settings}
    {sheet : Output.Stylesheet}
    (styled : ((new text input).convert settings).generated.stylesheet = some sheet) :
    sheet.name = stylesheetName input settings.output.stylesheetExtension := by
  have source := source_convert (new text input) settings
  rw [convert, Output.generate, Output.stylesheetOf] at styled
  rcases Option.map_eq_some_iff.mp styled with ⟨styles, -, rfl⟩
  have named : (Path.mk (new text input).fileName).stem?.getD "component" =
      input.stem?.getD "component" := by
    cases known : input.fileName? with
    | none =>
        have noStem : input.stem? = none := by rw [Path.stem?, known, Option.map_none]
        have own : (Path.mk "component").stem?.getD "component" = "component" := by decide +kernel
        rw [new, known, noStem]
        exact own
    | some name =>
        have isName := Path.isName_of_fileName? known
        have alone : (Path.mk name).segments = ⟨false, [] ++ [name.toList]⟩ :=
          Path.segments_of_name isName.2
        rw [new, known, Option.getD_some, Path.stem?_eq alone isName.1, Path.stem?, known]
        rfl
  rw [stylesheetName, stylesheetName, ← named, ← source]
  rfl

end Document

/-! ## Actions on files -/

namespace FileAction

theorem run_read (path : Path) (session : Session) :
    (read path).run session =
      match session.tree.get path with
      | .ok (.file contents) => .ok contents session
      | .ok (.directory _) => .error ⟨path, .isDirectory⟩ session
      | .error error => .error ⟨path, error⟩ session := by
  rw [read]
  cases got : session.tree.get path with
  | error error => exact run_bind_error (run_check_error got)
  | ok node =>
      rw [run_bind_ok (run_check_ok got)]
      cases node <;> rfl

/-- To read a text changes nothing, and whether there is one depends on the tree alone. -/
theorem run_readText (path : Path) (session : Session) :
    (readText path).run session =
      match session.tree.get path with
      | .ok (.file (.text text)) => .ok text session
      | .ok (.file (.binary _)) => .error ⟨path, .notText⟩ session
      | .ok (.directory _) => .error ⟨path, .isDirectory⟩ session
      | .error error => .error ⟨path, error⟩ session := by
  have ran := run_read path session
  rw [readText]
  rcases got : session.tree.get path with error | (text | bytes) | entries
  all_goals rw [got] at ran
  · exact run_bind_error ran
  · exact run_bind_ok ran
  · exact run_bind_ok ran
  · exact run_bind_error ran

/-- The text of the file that a path leads to. -/
theorem run_readText_ok {path : Path} {session : Session} {place : Location} {text : String}
    (followed : session.tree.follow path = .ok place)
    (held : session.tree.entryAt? place = some (.file (.text text))) :
    (readText path).run session = .ok text session := by
  rw [run_readText, FileTree.get_eq_ok.mpr ⟨place, followed, FileTree.find?_eq_file.mpr held⟩]

theorem readText_cases (path : Path) (session : Session) :
    (∃ text, (readText path).run session = .ok text session) ∨
      ∃ failure, (readText path).run session = .error failure session := by
  rw [run_readText]
  rcases session.tree.get path with error | (text | bytes) | entries
  · exact Or.inr ⟨_, rfl⟩
  · exact Or.inl ⟨_, rfl⟩
  · exact Or.inr ⟨_, rfl⟩
  · exact Or.inr ⟨_, rfl⟩

end FileAction

open FileAction

/-- The ways in which a conversion can end. -/
theorem writeConversion_cases (settings : Settings) (input output root : Path) (session : Session) :
    let action := writeConversion settings input output root
    (∃ failure, (readText input).run session = .error failure session ∧
      action.run session = .error failure session) ∨
    ∃ text, (readText input).run session = .ok text session ∧
      let conversion := (Document.new text input).convert settings
      let component := write output (.text conversion.generated.code)
      ((∃ failure done, component.run session = .error failure done ∧
        action.run session = .error failure done) ∨
      ∃ middle, component.run session = .ok () middle ∧
        ((conversion.generated.stylesheet = none ∧
          action.run session =
            .ok (conversion.written input output root [] middle.tree) middle) ∨
        ∃ sheet, conversion.generated.stylesheet = some sheet ∧
          let beside := output.withFileName sheet.name
          ((∃ failure done, (write beside (.text sheet.contents)).run middle = .error failure done ∧
            action.run session = .error failure done) ∨
          ∃ done, (write beside (.text sheet.contents)).run middle = .ok () done ∧
            action.run session =
              .ok (conversion.written input output root [beside] done.tree) done))) := by
  rw [writeConversion]
  rcases readText_cases input session with ⟨text, read⟩ | ⟨failure, read⟩
  · refine Or.inr ⟨text, read, ?_⟩
    rw [run_bind_ok read]
    dsimp only
    generalize (Document.new text input).convert settings = conversion
    cases component : (write output (.text conversion.generated.code)).run session with
    | error failure done => exact Or.inl ⟨failure, done, rfl, run_bind_error component⟩
    | ok _ middle =>
        refine Or.inr ⟨middle, rfl, ?_⟩
        rw [run_bind_ok component]
        cases conversion.generated.stylesheet with
        | none => exact Or.inl ⟨rfl, rfl⟩
        | some sheet =>
            refine Or.inr ⟨sheet, rfl, ?_⟩
            rw [writeStylesheet]
            cases styles : (write (output.withFileName sheet.name)
                (.text sheet.contents)).run middle with
            | error failure done =>
                exact Or.inl ⟨failure, done, rfl, run_bind_error (run_bind_error styles)⟩
            | ok _ done =>
                exact Or.inr ⟨done, rfl, run_bind_ok (run_bind_ok styles)⟩
  · exact Or.inl ⟨failure, read, run_bind_error read⟩

/-- Every write is to the place of one of some paths. -/
def WritesTo (paths : List Path) (writes : List (Location × Contents)) : Prop :=
  ∀ entry ∈ writes, ∃ path ∈ paths, path.place? = some entry.1

theorem WritesTo.nil (paths : List Path) : WritesTo paths [] :=
  nofun

theorem WritesTo.of_mem {paths : List Path} {path : Path} {place : Location} (isPath : path ∈ paths)
    (leads : path.place? = some place) (contents : Contents) :
    WritesTo paths [(place, contents)] :=
  List.forall_mem_singleton.mpr ⟨path, isPath, leads⟩

theorem WritesTo.mono {paths others : List Path} {writes : List (Location × Contents)}
    (wider : paths ⊆ others) (writesTo : WritesTo paths writes) : WritesTo others writes := by
  intro entry inside
  rcases writesTo entry inside with ⟨path, isPath, leads⟩
  exact ⟨path, wider isPath, leads⟩

theorem WritesTo.append {paths : List Path} {first second : List (Location × Contents)}
    (front : WritesTo paths first) (back : WritesTo paths second) :
    WritesTo paths (first ++ second) :=
  List.forall_mem_append.mpr ⟨front, back⟩

theorem WritesTo.lookup_eq_none {paths : List Path} {writes : List (Location × Contents)}
    {place : Location} (writesTo : WritesTo paths writes)
    (elsewhere : ∀ path ∈ paths, path.place? ≠ some place) : writes.lookup place = none := by
  rw [List.lookup_eq_none_iff]
  intro entry inside
  rcases writesTo entry inside with ⟨path, isPath, leads⟩
  rw [bne_iff_ne]
  rintro rfl
  exact elsewhere path isPath leads

/-- What is written to a place is written for a path that leads there. -/
theorem WritesTo.lookup_cases {paths : List Path} {writes : List (Location × Contents)}
    (writesTo : WritesTo paths writes) (place : Location) :
    writes.lookup place = none ∨ ∃ path ∈ paths, path.place? = some place := by
  by_cases written : ∃ path ∈ paths, path.place? = some place
  · exact Or.inr written
  · exact Or.inl (writesTo.lookup_eq_none fun path isPath leads => written ⟨path, isPath, leads⟩)

/-- Where the stylesheet of a file is written, if it has one. -/
def sheetPath (settings : Settings) (input output : Path) : Path :=
  output.withFileName (stylesheetName input settings.output.stylesheetExtension)

/-- A conversion that succeeds has written the component of the text that the input held, and after
it at most the stylesheet. -/
theorem converted_written {settings : Settings} {input output root : Path}
    {session done : Session} {result : WrittenConversion}
    (converted : (writeConversion settings input output root).run session = .ok result done) :
    result.output = output ∧ done.process = session.process ∧
      ∃ text place later region, (readText input).run session = .ok text session ∧
        output.place? = some place ∧ WritesTo [sheetPath settings input output] later ∧
        Written session.process
          (later ++ [(place, .text ((Document.new text input).convert settings).generated.code)])
          region session.tree done.tree := by
  rcases writeConversion_cases settings input output root session with
    ⟨_, -, ran⟩ | ⟨text, read, ⟨_, _, -, ran⟩ | ⟨middle, component, rest⟩⟩
  · rw [ran] at converted
    cases converted
  · rw [ran] at converted
    cases converted
  · rcases write_ok component with ⟨process, place, leads, written⟩
    rcases rest with ⟨-, ran⟩ | ⟨sheet, styled, ⟨_, _, -, ran⟩ | ⟨_, styles, ran⟩⟩
    · rw [ran] at converted
      cases converted
      exact ⟨rfl, process, text, place, [], _, read, leads, WritesTo.nil _, written⟩
    · rw [ran] at converted
      cases converted
    · rw [ran] at converted
      cases converted
      rcases write_ok styles with ⟨sameProcess, beside, leadsBeside, writtenBeside⟩
      rw [Document.stylesheet_name styled] at leadsBeside
      rw [process] at sameProcess writtenBeside
      exact ⟨rfl, sameProcess, text, place, _, _, read, leads,
        WritesTo.of_mem (List.mem_singleton_self _) leadsBeside _, written.append writtenBeside⟩

/-- A conversion that fails has written nothing, or the component without its stylesheet. -/
theorem failed_written {settings : Settings} {input output root : Path}
    {session done : Session} {failure : FileFailure}
    (failed : (writeConversion settings input output root).run session = .error failure done) :
    done.process = session.process ∧
      ((∃ region, Written session.process [] region session.tree done.tree) ∨
        ∃ text sheet place middle region, (readText input).run session = .ok text session ∧
          let conversion := (Document.new text input).convert settings
          conversion.generated.stylesheet = some sheet ∧
          (write output (.text conversion.generated.code)).run session = .ok () middle ∧
          (write (output.withFileName sheet.name) (.text sheet.contents)).run middle =
            .error failure done ∧
          output.place? = some place ∧
          Written session.process [(place, .text conversion.generated.code)] region session.tree
            done.tree) := by
  rcases writeConversion_cases settings input output root session with
    ⟨_, -, ran⟩ | ⟨text, read, ⟨_, _, component, ran⟩ | ⟨middle, component, rest⟩⟩
  · rw [ran] at failed
    cases failed
    exact ⟨rfl, Or.inl ⟨[], Written.refl _ _ _⟩⟩
  · rw [ran] at failed
    cases failed
    exact ⟨(write_error component).1, Or.inl ⟨_, (write_error component).2⟩⟩
  · rcases rest with ⟨-, ran⟩ | ⟨sheet, styled, ⟨_, _, styles, ran⟩ | ⟨_, -, ran⟩⟩
    · rw [ran] at failed
      cases failed
    · rw [ran] at failed
      cases failed
      rcases write_ok component with ⟨process, place, leads, written⟩
      rcases write_error styles with ⟨sameProcess, nothing⟩
      rw [process] at sameProcess nothing
      exact ⟨sameProcess, Or.inr ⟨text, sheet, place, middle, _, read, styled, component, styles,
        leads, written.append nothing⟩⟩
    · rw [ran] at failed
      cases failed

/-- What a conversion is written to. -/
def Conversion.targets (conversion : Conversion) (output : Path) : List Path :=
  output :: (conversion.generated.stylesheet.map fun sheet => output.withFileName sheet.name).toList

/-- Whether it succeeds or not, a conversion of a text writes to its targets alone, and adds
directories only for them. -/
theorem writeConversion_targets {settings : Settings} {input output : Path} {session : Session}
    {text : String} (root : Path) (read : (readText input).run session = .ok text session) :
    let done := after (writeConversion settings input output root) session
    let targets := ((Document.new text input).convert settings).targets output
    done.process = session.process ∧ ∃ writes, WritesTo targets writes ∧
      Written session.process writes (targets.flatMap directories) session.tree done.tree := by
  intro done targets
  have isOutput : output ∈ targets := List.mem_cons_self
  have outputs : directories output ⊆ targets.flatMap directories := fun place inside =>
    List.mem_flatMap.mpr ⟨output, isOutput, inside⟩
  rcases writeConversion_cases settings input output root session with
    ⟨_, failed, -⟩ | ⟨textToo, readToo, rest⟩
  · rw [read] at failed
    cases failed
  rw [read] at readToo
  cases readToo
  rcases rest with ⟨_, end', component, ran⟩ | ⟨middle, component, rest⟩
  · have isDone : done = end' := after_error ran
    rcases write_error component with ⟨process, written⟩
    rw [isDone]
    exact ⟨process, [], WritesTo.nil _, written.mono outputs⟩
  rcases write_ok component with ⟨process, place, leads, written⟩
  have onlyOutput := WritesTo.of_mem isOutput leads
    (.text ((Document.new text input).convert settings).generated.code)
  rcases rest with ⟨-, ran⟩ | ⟨sheet, styled, styles⟩
  · have isDone : done = middle := after_ok ran
    rw [isDone]
    exact ⟨process, _, onlyOutput, written.mono outputs⟩
  have isSheet : output.withFileName sheet.name ∈ targets := by
    refine List.mem_cons_of_mem _ ?_
    rw [styled]
    exact List.mem_singleton_self _
  have sheets : directories (output.withFileName sheet.name) ⊆ targets.flatMap directories :=
    fun place inside => List.mem_flatMap.mpr ⟨_, isSheet, inside⟩
  rcases styles with ⟨_, end', styles, ran⟩ | ⟨end', styles, ran⟩
  · have isDone : done = end' := after_error ran
    rcases write_error styles with ⟨sameProcess, nothing⟩
    rw [process] at sameProcess nothing
    rw [isDone]
    exact ⟨sameProcess, _, onlyOutput, (written.mono outputs).trans (nothing.mono sheets)⟩
  · have isDone : done = end' := after_ok ran
    rcases write_ok styles with ⟨sameProcess, beside, leadsBeside, writtenBeside⟩
    rw [process] at sameProcess writtenBeside
    rw [isDone]
    exact ⟨sameProcess, _, (WritesTo.of_mem isSheet leadsBeside _).append onlyOutput,
      (written.mono outputs).trans (writtenBeside.mono sheets)⟩

/-- Whether it succeeds or not, a conversion writes at most its component and its stylesheet. -/
theorem writeConversion_written (settings : Settings) (input output root : Path)
    (session : Session) :
    let done := after (writeConversion settings input output root) session
    done.process = session.process ∧ ∃ writes region,
      WritesTo [output, sheetPath settings input output] writes ∧
        Written session.process writes region session.tree done.tree := by
  rcases readText_cases input session with ⟨text, read⟩ | ⟨failure, read⟩
  · rcases writeConversion_targets root read with ⟨process, writes, targets, written⟩
    refine ⟨process, writes, _, targets.mono fun path isTarget => ?_, written⟩
    rcases List.mem_cons.mp isTarget with rfl | isSheet
    · exact List.mem_cons_self
    · rcases Option.map_eq_some_iff.mp (Option.mem_toList.mp isSheet) with ⟨sheet, styled, rfl⟩
      rw [Document.stylesheet_name styled]
      exact List.mem_cons_of_mem _ (List.mem_singleton_self _)
  · rw [writeConversion, after_bind_error read]
    exact ⟨rfl, [], [], WritesTo.nil _, Written.refl _ _ _⟩

/-! ## Copies -/

/-- A copy that is made is written at its destination. -/
theorem copy_written (source destination : Path) (session : Session) :
    (∃ failure done, (copy source destination).run session = .error failure done ∧
      done.process = session.process ∧
      ∃ region, Written session.process [] region session.tree done.tree) ∨
    ∃ done, (copy source destination).run session = .ok () done ∧
      done.process = session.process ∧ ∃ writes region, WritesTo [destination] writes ∧
        Written session.process writes region session.tree done.tree := by
  have ran := run_read source session
  rcases got : session.tree.get source with error | contents | entries
  all_goals rw [got] at ran
  · exact Or.inl ⟨_, _, run_bind_error ran, rfl, [], Written.refl _ _ _⟩
  · rw [copy, run_bind_ok ran]
    cases written : (write destination contents).run session with
    | ok _ done =>
        rcases write_ok written with ⟨process, place, leads, written⟩
        exact Or.inr ⟨done, rfl, process, _, _,
          WritesTo.of_mem (List.mem_singleton_self _) leads contents, written⟩
    | error failure done =>
        rcases write_error written with ⟨process, written⟩
        exact Or.inl ⟨failure, done, rfl, process, _, written⟩
  · exact Or.inl ⟨_, _, run_bind_error ran, rfl, [], Written.refl _ _ _⟩

theorem makeCopies_cons (copy : Copy) (copies : List Copy) :
    makeCopies (copy :: copies) = (do
      FileAction.copy copy.source copy.destination
      let others <- makeCopies copies
      return copy.destination :: others) := by
  rw [makeCopies, List.mapM_cons]
  simp only [bind_assoc, pure_bind]
  rfl

theorem makeCopies_written (copies : List Copy) (session : Session) :
    let done := after (makeCopies copies) session
    done.process = session.process ∧ ∃ writes region,
      WritesTo (copies.map (·.destination)) writes ∧
        Written session.process writes region session.tree done.tree := by
  induction copies generalizing session with
  | nil => exact ⟨rfl, [], [], WritesTo.nil _, Written.refl _ _ _⟩
  | cons copy copies ih =>
      rw [makeCopies_cons, List.map_cons]
      rcases copy_written copy.source copy.destination session with
        ⟨failure, done, ran, process, region, written⟩ |
        ⟨middle, ran, process, writes, region, here, written⟩
      · rw [after_bind_error ran]
        exact ⟨process, [], region, WritesTo.nil _, written⟩
      · rw [after_bind_ok ran, after_bind_pure]
        rcases ih middle with ⟨sameProcess, later, further, below, writtenLater⟩
        rw [process] at sameProcess writtenLater
        exact ⟨sameProcess, _, _, (below.mono (List.subset_cons_self _ _)).append
          (here.mono (List.cons_subset_cons _ (List.nil_subset _))), written.append writtenLater⟩

/-- The copies that a conversion plans, if it comes to that. -/
def plannedCopies (settings : Settings) (input output root : Path) (session : Session) :
    List Copy :=
  match (writeConversion settings input output root).run session with
  | .ok result _ => (CopyPlan.of result.copies).planned
  | .error _ _ => []

theorem convertFile_written (settings : Settings) (input output root : Path) (session : Session) :
    let done := after (convertFile settings input output root) session
    done.process = session.process ∧ ∃ writes region,
      WritesTo ([output, sheetPath settings input output] ++
        (plannedCopies settings input output root session).map (·.destination)) writes ∧
        Written session.process writes region session.tree done.tree := by
  rcases writeConversion_written settings input output root session with
    ⟨process, writes, region, here, written⟩
  rw [plannedCopies]
  cases ran : (writeConversion settings input output root).run session with
  | error failure done =>
      rw [after_error ran] at process written
      rw [convertFile, after_bind_error ran]
      exact ⟨process, writes, region, here.mono (List.subset_append_left _ _), written⟩
  | ok result middle =>
      rw [after_ok ran] at process written
      rw [convertFile, after_bind_ok ran, after_bind_pure]
      rcases makeCopies_written (CopyPlan.of result.copies).planned middle with
        ⟨sameProcess, later, further, below, writtenLater⟩
      rw [process] at sameProcess writtenLater
      exact ⟨sameProcess, _, _, (below.mono (List.subset_append_right _ _)).append
        (here.mono (List.subset_append_left _ _)), written.append writtenLater⟩

theorem CopyPlan.planned_of (copies : List Copy) : (CopyPlan.of copies).planned ⊆ copies := by
  have step : ∀ (copies : List Copy) (plan : CopyPlan),
      (copies.foldl CopyPlan.add plan).planned ⊆ plan.planned ++ copies := by
    intro copies
    induction copies with
    | nil => exact fun plan => List.subset_append_left _ _
    | cons copy copies ih =>
        intro plan planned isPlanned
        rcases List.mem_append.mp (ih (plan.add copy) isPlanned) with here | later
        · rw [CopyPlan.add] at here
          split at here
          · rcases List.mem_append.mp here with known | isNew
            · exact List.mem_append_left _ known
            · exact List.mem_append_right _ (List.mem_singleton.mp isNew ▸ List.mem_cons_self)
          · split at here
            · exact List.mem_append_left _ here
            · exact List.mem_append_left _ here
        · exact List.mem_append_right _ (List.mem_cons_of_mem _ later)
  exact step copies {}

/-- What a conversion wants to be copied goes where resources are copied to. -/
theorem converted_copies {settings : Settings} {input output root : Path}
    {session done : Session} {result : WrittenConversion}
    (converted : (writeConversion settings input output root).run session = .ok result done) :
    ∀ copy ∈ result.copies, ∃ resource : Resource, resource.path = copy.source ∧
      resource.destination? root = some copy.destination := by
  have written : ∃ conversion sheets tree,
      result = Conversion.written conversion input output root sheets tree := by
    rcases writeConversion_cases settings input output root session with
      ⟨_, -, ran⟩ | ⟨text, -, ⟨_, _, -, ran⟩ | ⟨middle, -, ⟨-, ran⟩ |
        ⟨sheet, -, ⟨_, _, -, ran⟩ | ⟨_, -, ran⟩⟩⟩⟩
    all_goals
      rw [ran] at converted
      cases converted
    · exact ⟨_, _, _, rfl⟩
    · exact ⟨_, _, _, rfl⟩
  rcases written with ⟨conversion, sheets, tree, rfl⟩
  intro copy isCopy
  rcases List.mem_filterMap.mp isCopy with ⟨resource, -, planned⟩
  rcases Option.map_eq_some_iff.mp planned with ⟨destination, goes, rfl⟩
  exact ⟨resource, rfl, goes⟩

/-! ## What is kept -/

/-- What a place holds is what it held before, or a file that was there under a temporary name is
gone. -/
def Kept (process : Nat) (before done : FileTree) (place : Location) : Prop :=
  done.contents? place = before.contents? place ∨
    IsTemporary process place ∧ done.contents? place = none

theorem Kept.of_written {process : Nat} {writes : List (Location × Contents)}
    {region : List Location} {before done : FileTree} {place : Location}
    (written : Written process writes region before done)
    (untouched : writes.lookup place = none) : Kept process before done place :=
  written.origin untouched

/-- A page with a style, and a directory where the stylesheet belongs. -/
def blockedPage : Session :=
  let page := FileTree.file (.text "<style>p \x7b margin: 0; \x7d</style>")
  ⟨.directory [("page.html", page), ("page.styles.css", .directory [])], 0, 0⟩

theorem blockedPage_fails :
    ∃ failure done, (writeConversion {} ⟨"page.html"⟩ ⟨"page.jsx"⟩ ⟨"."⟩).run blockedPage =
      .error failure done ∧ (done.tree.contents? ["page.jsx"]).isSome = true := by
  have evaluated :
      (match (writeConversion {} ⟨"page.html"⟩ ⟨"page.jsx"⟩ ⟨"."⟩).run blockedPage with
      | .ok _ _ => false
      | .error _ done => (done.tree.contents? ["page.jsx"]).isSome) = true := by
    decide +kernel
  cases ran : (writeConversion {} ⟨"page.html"⟩ ⟨"page.jsx"⟩ ⟨"."⟩).run blockedPage with
  | ok result done =>
      rw [ran] at evaluated
      cases evaluated
  | error failure done =>
      rw [ran] at evaluated
      exact ⟨failure, done, rfl, evaluated⟩

end Hookify
