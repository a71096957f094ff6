import Hookify.Component.Basic
import Hookify.Conversion.Copies
import Hookify.Settings.Basic
import Hookify.Text.Json
import Hookify.Text.Table

namespace Hookify

/-!
# Summaries

What has become of the files of a batch, in words for a reader or as a record
for another program.
-/

/-!
## Complexity

How much work a script is likely to be, as a weighted sum of what was found in
it.  Each term is a number of 32 bits: a count keeps its lowest bits, and a
product that does not fit is the greatest such number.
-/

/-- How many numbers have 32 bits. -/
def termLimit : Nat := Nat.pow 2 32

/-- A count with its weight. -/
def weighted (count weight : Nat) : Nat :=
  min (count % termLimit * weight) (termLimit - 1)

/-- The weighted sum of what was found. -/
def complexity (weights : Weights) (stats : Stats) : Nat :=
  weighted stats.selectors weights.selector + weighted stats.handlers weights.handler +
    weighted stats.mutations weights.mutation + weighted stats.remoteCalls weights.remoteCall +
    weighted stats.animations weights.animation +
    weighted stats.styleMutations weights.styleMutation

/-- A complexity in words. -/
inductive Rating where
  | low
  | medium
  | high
  deriving Repr, DecidableEq

/-- The rating of a sum. What is above the higher threshold is high, whatever the lower one is. -/
def rate (weights : Weights) (sum : Nat) : Rating :=
  if weights.high < sum then .high
  else if weights.medium ≤ sum then .medium
  else .low

namespace Rating

/-- The rating as a table shows it. -/
def label : Rating → String
  | .low => "Low"
  | .medium => "Medium"
  | .high => "High"

/-- The rating as records name it. -/
def key : Rating → String
  | .low => "low"
  | .medium => "medium"
  | .high => "high"

end Rating

/-! ## What has become of files -/

/-- What has become of a file. -/
inductive FileStatus where
  | converted (output : Path) (component : String) (warnings : Nat)
  | failed (error : String)
  deriving Repr, DecidableEq

/-- A file of a batch; its path is the one below the root of the batch. -/
structure FileSummary where
  path : Path
  status : FileStatus
  stats : Stats
  deriving Repr, DecidableEq

/-- The file could not be converted. -/
def FileSummary.isFailed (file : FileSummary) : Bool :=
  match file.status with
  | .failed _ => true
  | .converted .. => false

/-- What has become of the resources of a batch. -/
structure CopyReport where
  copied : List Path := []
  conflicts : List CopyConflict := []
  errors : List String := []
  deriving Repr, DecidableEq

/-- What has become of a batch. -/
structure Summary where
  root : Path
  outputRoot : Path
  files : List FileSummary
  weights : Weights
  resources : CopyReport
  deriving Repr, DecidableEq

namespace Summary

/-- The files that could not be converted. -/
def failed (summary : Summary) : List FileSummary :=
  summary.files.filter (·.isFailed)

/-- The files that were converted. -/
def converted (summary : Summary) : List FileSummary :=
  summary.files.filter (! ·.isFailed)

/-- What was found in all files together. -/
def totals (summary : Summary) : Stats :=
  summary.files.foldl (fun totals file => totals.add file.stats) {}

/-- The complexity of a part of the batch. -/
def score (summary : Summary) (stats : Stats) : Nat :=
  complexity summary.weights stats

/-- How complex a part of the batch is. -/
def rating (summary : Summary) (stats : Stats) : Rating :=
  rate summary.weights (summary.score stats)

/-- A failed file counts as simple. -/
def fileRating (summary : Summary) (file : FileSummary) : Rating :=
  if file.isFailed then .low else summary.rating file.stats

/-- A failed file counts for nothing. -/
def fileScore (summary : Summary) (file : FileSummary) : Nat :=
  if file.isFailed then 0 else summary.score file.stats

/-! ## As a record -/

open Text (JsonValue)

/-- A path in a record. -/
def pathValue (path : Path) : JsonValue :=
  .text path.text

/-- What was found, in a record. -/
def statsValue (stats : Stats) : JsonValue :=
  .record
    [ ("selectors", .number stats.selectors),
      ("event_handlers", .number stats.handlers),
      ("mutations", .number stats.mutations),
      ("remote_calls", .number stats.remoteCalls),
      ("animations", .number stats.animations),
      ("style_mutations", .number stats.styleMutations) ]

/-- What has become of a file, as entries of its record. -/
def statusFields : FileStatus → List (String × JsonValue)
  | .converted output component warnings =>
      [ ("status", .text "converted"),
        ("output", pathValue output),
        ("component", .text component),
        ("warnings", .number warnings) ]
  | .failed error => [("status", .text "failed"), ("error", .text error)]

/-- A file in a record. -/
def fileValue (summary : Summary) (file : FileSummary) : JsonValue :=
  .record
    ([("path", pathValue file.path)] ++ statusFields file.status ++
      [ ("stats", statsValue file.stats),
        ("score", .number (summary.fileScore file)),
        ("rating", .text (summary.fileRating file).key) ])

/-- A conflict in a record. -/
def conflictValue (conflict : CopyConflict) : JsonValue :=
  .record
    [ ("destination", pathValue conflict.destination),
      ("kept", pathValue conflict.kept),
      ("skipped", pathValue conflict.skipped) ]

/-- The summary as a record. -/
def value (summary : Summary) : JsonValue :=
  .record
    [ ("root", pathValue summary.root),
      ("output_root", pathValue summary.outputRoot),
      ("converted", .number summary.converted.length),
      ("failed", .number summary.failed.length),
      ("totals", statsValue summary.totals),
      ("total_score", .number (summary.score summary.totals)),
      ("rating", .text (summary.rating summary.totals).key),
      ("files", .list (summary.files.map summary.fileValue)),
      ("resources", .record
        [ ("copied", .list (summary.resources.copied.map pathValue)),
          ("conflicts", .list (summary.resources.conflicts.map conflictValue)),
          ("errors", .list (summary.resources.errors.map .text)) ]) ]

/-- The summary as the text of a record. -/
def json (summary : Summary) : String :=
  summary.value.render

/-! ## In words -/

/-- The heading of the table of files. -/
def heading : List String :=
  ["File", "Selectors", "Handlers", "Mutations", "Styles", "Remote", "Animations", "Score",
    "Rating"]

/-- A row of the table of files. -/
def tableRow (name : String) (stats : Stats) (score : Nat) (rating : Rating) : List String :=
  [name] ++
    ([stats.selectors, stats.handlers, stats.mutations, stats.styleMutations, stats.remoteCalls,
      stats.animations, score].map toString) ++
    [rating.label]

/-- The rows of the table of files: the converted ones, and the totals. -/
def tableRows (summary : Summary) : List (List String) :=
  let totals := summary.totals
  summary.converted.map (fun file =>
    tableRow file.path.text file.stats (summary.fileScore file) (summary.fileRating file)) ++
    [tableRow "Total" totals (summary.score totals) (summary.rating totals)]

/-- A file that could not be converted, in words. -/
def failureLine (file : FileSummary) : List String :=
  match file.status with
  | .failed error => ["failed " ++ file.path.text ++ ": " ++ error]
  | .converted .. => []

/-- A conflict in words. -/
def conflictLine (conflict : CopyConflict) : String :=
  "conflict " ++ conflict.destination.text ++ " already taken by " ++ conflict.kept.text ++ ", " ++
    conflict.skipped.text ++ " not copied"

/-- The summary in words, line by line. -/
def lines (summary : Summary) : List String :=
  ["Converted " ++ toString summary.converted.length ++ " of " ++
    toString summary.files.length ++ " files into " ++ summary.outputRoot.text] ++
    Text.tableLines heading summary.tableRows ++
    summary.files.flatMap failureLine ++
    (if summary.resources.copied.isEmpty then []
      else ["Copied " ++ toString summary.resources.copied.length ++ " linked resources"]) ++
    summary.resources.conflicts.map conflictLine ++
    summary.resources.errors.map ("copy failed " ++ ·)

/-- The summary in words. -/
def table (summary : Summary) : String :=
  String.join (summary.lines.map (· ++ "\n"))

end Summary
end Hookify
