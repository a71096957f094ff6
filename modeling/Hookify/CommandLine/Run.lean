import Hookify.Batch.Run
import Hookify.CommandLine.Arguments
import Hookify.Settings.Read
import Hookify.Settings.Basic

namespace Hookify
namespace CommandLine

/-!
# Running a command

A command reads and changes the files of the working directory and prints what
it has done.  If it fails it prints nothing, but what it has written up to then
stays.
-/

/-- Why a command fails. -/
inductive Failure where
  /-- The settings file that was named is no valid one. -/
  | settings
  /-- There is a settings file already. -/
  | settingsExist
  /-- A file cannot be read or written. -/
  | file (failure : FileFailure)
  /-- A file cannot be converted. -/
  | convert (input : Path) (failure : FileFailure)
  /-- The root of a batch is no directory. -/
  | walk (root : Path)
  deriving Repr, DecidableEq

namespace Failure

/-- A failure with a file in words: which one it is, and what is wrong with it. -/
def fileMessages (failure : FileFailure) : List String :=
  [failure.message, failure.error.text]

/-- The failure in words, from what was to be done to what went wrong. -/
def messages : Failure → List String
  | .settings => ["Failed to parse " ++ Settings.fileName]
  | .settingsExist => ["Configuration file already exists. Use --force to overwrite."]
  | .file failure => fileMessages failure
  | .convert input failure => ("Failed to convert " ++ input.text) :: fileMessages failure
  | .walk root =>
      [ "Failed to convert " ++ root.text,
        "Failed to walk " ++ root.text ++ ": not a directory" ]

end Failure

/-- What a command prints, or why it fails. -/
abbrev Outcome := Except Failure String

/-- The path of the settings file of the working directory. -/
def settingsPath : Path := ⟨Settings.fileName⟩

/-- The settings of the working directory. A settings file that cannot be used is passed over. -/
def discoveredSettings (session : Session) : Settings :=
  match (FileAction.readText settingsPath).run session with
  | .ok text _ => (Settings.read? text).getD {}
  | .error _ _ => {}

/-- The settings of a file. -/
def namedSettings (path : Path) (session : Session) : Except Failure Settings :=
  match (FileAction.readText path).run session with
  | .ok text _ =>
      match Settings.read? text with
      | some settings => .ok settings
      | none => .error .settings
  | .error failure _ => .error (.file failure)

/-- The settings for an invocation. -/
def settingsFor (config : Option String) (session : Session) : Except Failure Settings :=
  match config with
  | some path => namedSettings ⟨path⟩ session
  | none => .ok (discoveredSettings session)

/-- Lines as they are printed. -/
def printed (lines : List String) : String :=
  String.join (lines.map (· ++ "\n"))

/-- Where the files that a page loads are copied to: beside the component. -/
def resourceRoot (output : Path) : Path :=
  match output.parent? with
  | some parent => if parent.text.isEmpty then ⟨"."⟩ else parent
  | none => ⟨"."⟩

/-- Convert one file. -/
def runConvert (settings : Settings) (input : Path) (output : Option Path) (session : Session) :
    Outcome × Session :=
  let output := output.getD (defaultOutput input settings.output.extension)
  match (convertFile settings input output (resourceRoot output)).run session with
  | .ok result session => (.ok (printed result.lines), session)
  | .error failure session => (.error (.convert input failure), session)

/-- Convert a directory. -/
def runBatch (settings : Settings) (root : Path) (output : Option Path) (format : SummaryFormat)
    (session : Session) : Outcome × Session :=
  let batch : Batch :=
    { root := root
      outputRoot := output.getD ⟨settings.output.batchDirectory⟩
      settings := settings }
  match batch.run? session with
  | some (summary, session) =>
      let text := match format with
        | .words => summary.table
        | .json => printed [summary.json]
      (.ok text, session)
  | none => (.error (.walk root), session)

/-- Write a settings file with the defaults. -/
def runInit (force : Bool) (session : Session) : Outcome × Session :=
  if session.tree.holds settingsPath && ! force then (.error .settingsExist, session)
  else
    match (FileAction.write settingsPath (.text Settings.template)).run session with
    | .ok _ session =>
        (.ok (printed ["Created " ++ Settings.fileName ++ " configuration file"]), session)
    | .error failure session => (.error (.file failure), session)

/-- Carry out an invocation. The settings are read before anything else, unless they are to be
written. -/
def Invocation.perform (invocation : Invocation) (session : Session) : Outcome × Session :=
  let withSettings := fun (action : Settings → Outcome × Session) =>
    match settingsFor invocation.config session with
    | .ok settings => action settings
    | .error failure => (.error failure, session)
  match invocation.command with
  | .init force => runInit force session
  | .convert input output =>
      withSettings fun settings => runConvert settings ⟨input⟩ (output.map (⟨·⟩)) session
  | .batch root output _ format =>
      withSettings fun settings => runBatch settings ⟨root⟩ (output.map (⟨·⟩)) format session

/-- Carry out an invocation on a file tree.  Only the system knows the number of the process, which
shows in temporary names alone. -/
def Invocation.run (invocation : Invocation) (tree : FileTree) : Outcome × FileTree :=
  let (outcome, session) := invocation.perform { tree := tree, process := 0, named := 0 }
  (outcome, session.tree)

end CommandLine
end Hookify
