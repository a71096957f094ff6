import Hookify.Batch.Run
import Hookify.Proofs.Conversion.Writes

namespace Hookify

/-!
# What a batch writes

A batch writes for one file after the other, and then copies.  What a file holds
in the end is the last that has been written there, so it is enough to know the
places that each step writes to: a conversion those of its component and its
stylesheet, and the copies those that the summary tells.
-/

open FileAction

namespace Batch

variable {batch : Batch} {session done : Session} {input : Path}

/-- The stylesheet of a file of a batch. -/
def sheet (batch : Batch) (input : Path) : Path :=
  sheetPath batch.settings input (batch.output input)

/-- Where a conversion writes to. -/
def targets (batch : Batch) (input : Path) : List Path :=
  [batch.output input, batch.sheet input]

/-- The action that a batch takes for a file. -/
def action (batch : Batch) (input : Path) : FileAction WrittenConversion :=
  writeConversion batch.settings input (batch.output input) batch.outputRoot

/-! ## One file -/

theorem convert_ok {result : WrittenConversion}
    (ran : (batch.action input).run session = .ok result done) :
    batch.convert input session =
      ((⟨(batch.root.below? input).getD input,
        .converted result.output result.component result.warnings, result.stats⟩,
        result.copies), done) := by
  rw [convert, ← action, ran]

theorem convert_error {failure : FileFailure}
    (ran : (batch.action input).run session = .error failure done) :
    batch.convert input session =
      ((⟨(batch.root.below? input).getD input, .failed failure.message, {}⟩, []), done) := by
  rw [convert, ← action, ran]

theorem convert_session (batch : Batch) (input : Path) (session : Session) :
    (batch.convert input session).2 = after (batch.action input) session := by
  cases ran : (batch.action input).run session with
  | ok result done => rw [convert_ok ran, after_ok ran]
  | error failure done => rw [convert_error ran, after_error ran]

theorem convert_written (batch : Batch) (input : Path) (session : Session) :
    (batch.convert input session).2.process = session.process ∧ ∃ writes region,
      WritesTo (batch.targets input) writes ∧
        Written session.process writes region session.tree
          (batch.convert input session).2.tree := by
  rw [convert_session]
  exact writeConversion_written _ _ _ _ session

/-! ## One file after the other -/

theorem convertAll_cons (batch : Batch) (input : Path) (rest : List Path) (session : Session) :
    batch.convertAll (input :: rest) session =
      let first := batch.convert input session
      let others := batch.convertAll rest first.2
      (first.1 :: others.1, others.2) :=
  rfl

theorem convertAll_append (batch : Batch) (first second : List Path) (session : Session) :
    batch.convertAll (first ++ second) session =
      let front := batch.convertAll first session
      let back := batch.convertAll second front.2
      (front.1 ++ back.1, back.2) := by
  induction first generalizing session with
  | nil => rfl
  | cons input first ih =>
      have below := ih (batch.convert input session).2
      rw [List.cons_append, convertAll_cons, convertAll_cons]
      dsimp only
      rw [below]
      rfl

theorem convertAll_length (batch : Batch) (inputs : List Path) (session : Session) :
    (batch.convertAll inputs session).1.length = inputs.length := by
  induction inputs generalizing session with
  | nil => rfl
  | cons input rest ih => rw [convertAll_cons, List.length_cons, List.length_cons, ih]

/-- What is told about a file is what its conversion gives, after those before it. -/
theorem convertAll_getElem? (batch : Batch) (before : List Path) (input : Path) (rest : List Path)
    (session : Session) :
    (batch.convertAll (before ++ input :: rest) session).1[before.length]? =
      some (batch.convert input (batch.convertAll before session).2).1 := by
  have length := convertAll_length batch before session
  rw [convertAll_append]
  dsimp only
  rw [List.getElem?_append_right (le_of_eq length), length, Nat.sub_self, convertAll_cons]
  rfl

theorem convertAll_written (batch : Batch) (inputs : List Path) (session : Session) :
    let done := (batch.convertAll inputs session).2
    done.process = session.process ∧ ∃ writes region,
      WritesTo (inputs.flatMap batch.targets) writes ∧
        Written session.process writes region session.tree done.tree := by
  induction inputs generalizing session with
  | nil => exact ⟨rfl, [], [], WritesTo.nil _, Written.refl _ _ _⟩
  | cons input rest ih =>
      rw [convertAll_cons, List.flatMap_cons]
      rcases convert_written batch input session with ⟨process, writes, region, here, written⟩
      rcases ih (batch.convert input session).2 with
        ⟨sameProcess, later, further, below, writtenLater⟩
      rw [process] at sameProcess writtenLater
      exact ⟨sameProcess, _, _, (below.mono (List.subset_append_right _ _)).append
        (here.mono (List.subset_append_left _ _)), written.append writtenLater⟩

/-! ## Copies -/

theorem copyOne_written (report : CopyReport) (session : Session) (copy : Copy) :
    let next := copyOne report session copy
    next.2.process = session.process ∧ report.copied ⊆ next.1.copied ∧ ∃ writes region,
      WritesTo next.1.copied writes ∧
        Written session.process writes region session.tree next.2.tree := by
  rcases copy_written copy.source copy.destination session with
    ⟨failure, done, ran, process, region, written⟩ |
    ⟨done, ran, process, writes, region, here, written⟩
  · rw [copyOne, ran]
    exact ⟨process, List.Subset.refl _, [], region, WritesTo.nil _, written⟩
  · rw [copyOne, ran]
    exact ⟨process, List.subset_append_left _ _, writes, region,
      here.mono (List.subset_append_right _ _), written⟩

theorem copies_written (copies : List Copy) (report : CopyReport) (session : Session) :
    let last := copies.foldl (fun (report, session) copy => copyOne report session copy)
      (report, session)
    last.2.process = session.process ∧ report.copied ⊆ last.1.copied ∧ ∃ writes region,
      WritesTo last.1.copied writes ∧
        Written session.process writes region session.tree last.2.tree := by
  induction copies generalizing report session with
  | nil => exact ⟨rfl, List.Subset.refl _, [], [], WritesTo.nil _, Written.refl _ _ _⟩
  | cons copy copies ih =>
      rw [List.foldl_cons]
      rcases copyOne_written report session copy with
        ⟨process, wider, writes, region, here, written⟩
      rcases ih (copyOne report session copy).1 (copyOne report session copy).2 with
        ⟨sameProcess, further, later, region', below, writtenLater⟩
      rw [process] at sameProcess writtenLater
      exact ⟨sameProcess, List.Subset.trans wider further, _, _, below.append (here.mono further),
        written.append writtenLater⟩

/-! ## The whole batch -/

theorem run?_eq_some {summary : Summary} (ran : batch.run? session = some (summary, done)) :
    ∃ files, batch.files? session.tree = some files ∧
      let converted := batch.convertAll files session
      let copied := copyAll (CopyPlan.of (converted.1.flatMap (·.2))) converted.2
      summary.files = converted.1.map (·.1) ∧ summary.resources = copied.1 ∧ done = copied.2 := by
  rcases Option.map_eq_some_iff.mp ran with ⟨files, walked, same⟩
  cases same
  exact ⟨files, walked, rfl, rfl, rfl⟩

/-- Only what has been planned is copied. -/
theorem copied_subset (plan : CopyPlan) (session : Session) :
    (copyAll plan session).1.copied ⊆ plan.planned.map (·.destination) := by
  have step : ∀ (copies : List Copy) (report : CopyReport) (session : Session),
      (copies.foldl (fun (report, session) copy => copyOne report session copy)
        (report, session)).1.copied ⊆ report.copied ++ copies.map (·.destination) := by
    intro copies
    induction copies with
    | nil => exact fun report session => List.subset_append_left _ _
    | cons copy copies ih =>
        intro report session destination isCopied
        rw [List.foldl_cons] at isCopied
        have later := ih (copyOne report session copy).1 (copyOne report session copy).2 isCopied
        rw [copyOne] at later
        split at later
        · rwa [List.append_assoc] at later
        · rcases List.mem_append.mp later with known | later
          · exact List.mem_append_left _ known
          · exact List.mem_append_right _ (List.mem_cons_of_mem _ later)
  exact step plan.planned { conflicts := plan.conflicts } session

/-- Whatever a batch wants to be copied goes where resources are copied to. -/
theorem convertAll_copies (batch : Batch) (inputs : List Path) (session : Session) :
    ∀ copy ∈ (batch.convertAll inputs session).1.flatMap (·.2), ∃ resource : Resource,
      resource.path = copy.source ∧
        resource.destination? batch.outputRoot = some copy.destination := by
  induction inputs generalizing session with
  | nil => exact nofun
  | cons input rest ih =>
      rw [convertAll_cons, List.flatMap_cons, List.forall_mem_append]
      refine ⟨?_, ih (batch.convert input session).2⟩
      cases ran : (batch.action input).run session with
      | error failure done =>
          rw [convert_error ran]
          exact nofun
      | ok result done =>
          rw [convert_ok ran]
          exact converted_copies ran

theorem copyAll_written (plan : CopyPlan) (session : Session) :
    let last := copyAll plan session
    last.2.process = session.process ∧ ∃ writes region, WritesTo last.1.copied writes ∧
      Written session.process writes region session.tree last.2.tree := by
  rcases copies_written plan.planned { conflicts := plan.conflicts } session with
    ⟨process, -, rest⟩
  exact ⟨process, rest⟩

end Batch
end Hookify
