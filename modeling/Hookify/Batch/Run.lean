import Hookify.Batch.Summary
import Hookify.Batch.Walk
import Hookify.Conversion.Write

namespace Hookify

/-!
# Batches

Every file of a batch is converted by itself, in the order of the paths.  A
file that fails is recorded and the batch goes on.  The files that pages load
are copied once, when all conversions are done, since several pages may load
the same file.
-/

/-- A batch. -/
structure Batch where
  root : Path
  outputRoot : Path
  settings : Settings

namespace Batch

/-- The component of a file of a batch. -/
def output (batch : Batch) (input : Path) : Path :=
  outputBelow batch.root input batch.outputRoot batch.settings.output.extension

/-- Convert a file of a batch. Tells what has become of it and what is to be copied. -/
def convert (batch : Batch) (input : Path) (session : Session) :
    (FileSummary × List Copy) × Session :=
  let relative := (batch.root.below? input).getD input
  let action := writeConversion batch.settings input (batch.output input) batch.outputRoot
  match action.run session with
  | .ok result session =>
      let status := FileStatus.converted result.output result.component result.warnings
      ((⟨relative, status, result.stats⟩, result.copies), session)
  | .error failure session => ((⟨relative, .failed failure.message, {}⟩, []), session)

/-- Convert files one after the other. -/
def convertAll (batch : Batch) :
    List Path → Session → List (FileSummary × List Copy) × Session
  | [], session => ([], session)
  | input :: rest, session =>
      let (result, session) := batch.convert input session
      let (results, session) := batch.convertAll rest session
      (result :: results, session)

/-- Make one copy; a failure is recorded. -/
def copyOne (report : CopyReport) (session : Session) (copy : Copy) : CopyReport × Session :=
  match (FileAction.copy copy.source copy.destination).run session with
  | .ok _ session => ({ report with copied := report.copied ++ [copy.destination] }, session)
  | .error failure session =>
      ({ report with errors := report.errors ++ [failure.message] }, session)

/-- Make the copies of a plan. -/
def copyAll (plan : CopyPlan) (session : Session) : CopyReport × Session :=
  plan.planned.foldl (fun (report, session) copy => copyOne report session copy)
    ({ conflicts := plan.conflicts }, session)

/-- The files of a batch; none if its root is no directory. -/
def files? (batch : Batch) (tree : FileTree) : Option (List Path) :=
  tree.batchFiles? batch.settings.batch batch.root batch.outputRoot

/-- Convert a batch; none if its root is no directory. -/
def run? (batch : Batch) (session : Session) : Option (Summary × Session) :=
  (batch.files? session.tree).map fun files =>
    let (results, session) := batch.convertAll files session
    let (resources, session) := copyAll (CopyPlan.of (results.flatMap (·.2))) session
    let summary : Summary :=
      { root := batch.root
        outputRoot := batch.outputRoot
        files := results.map (·.1)
        weights := batch.settings.complexity
        resources := resources }
    (summary, session)

end Batch
end Hookify
