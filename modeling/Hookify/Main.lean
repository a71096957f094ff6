import Hookify.CommandLine.Run
import Hookify.Files.Changes

namespace Hookify
namespace CommandLine

/-!
# The program

The command line over the files of the working directory.  They are read before
the command runs, and what it has changed is written when it is done.  A link to
a file counts as the file; a link to a directory is not followed.
-/

/-- The variable that names a settings file if no argument does. -/
def settingsVariable : String := "JQ2REACT_CONFIG"

/-- What the program takes. -/
def usage : String :=
  "Usage: jq2react [-v] [-q] [--config <FILE>] <COMMAND>\n\n" ++
  "Commands:\n" ++
  "  convert <INPUT> [-o <FILE>]\n" ++
  "  batch <ROOT> [-o <DIRECTORY>] [-j <COUNT>] [-f terminal|json]\n" ++
  "  init [-f]\n"

/-- The version of the program. -/
def version : String := "jq2react 0.1.0\n"

/-- A failure as it is shown: what was to be done, and below it what went wrong. Causes are
numbered if there are several. -/
def Failure.shown (failure : Failure) : String :=
  match failure.messages with
  | [] => "Error\n"
  | [message] => "Error: " ++ message ++ "\n"
  | [message, cause] => "Error: " ++ message ++ "\n\nCaused by:\n    " ++ cause ++ "\n"
  | message :: causes =>
      let numbered := causes.zipIdx.map fun (cause, number) =>
        "    " ++ toString number ++ ": " ++ cause
      "Error: " ++ message ++ "\n\nCaused by:\n" ++ printed numbered

/-- Read a directory, entry by entry. What cannot be read counts as missing. -/
partial def readEntries (entries : List IO.FS.DirEntry) : IO (List (String × FileTree)) :=
  entries.filterMapM fun entry => do
    try
      match (<- entry.path.symlinkMetadata).type with
      | .dir =>
          let children <- entry.path.readDir
          return some (entry.fileName, .directory (<- readEntries children.toList))
      | _ =>
          let bytes <- IO.FS.readBinFile entry.path
          return some (entry.fileName, .file (.ofBytes bytes.toList))
    catch _ => return none

/-- Read the working directory. -/
def readTree : IO FileTree := do
  let entries <- (<- IO.currentDir).readDir
  return .directory (<- readEntries entries.toList)

/-- Carry out a change below the working directory. -/
def carryOut : FileTree.Change → IO Unit
  | .directory location => IO.FS.createDirAll (String.intercalate "/" location)
  | .file location contents =>
      IO.FS.writeBinFile (String.intercalate "/" location) ⟨contents.bytes.toArray⟩

/-- Carry out an invocation on the working directory, and give the exit code. -/
def perform (invocation : Invocation) : IO UInt32 := do
  let config := invocation.config.or (<- IO.getEnv settingsVariable)
  let before <- readTree
  let (outcome, after) := { invocation with config := config }.run before
  (before.changesTo after).forM carryOut
  match outcome with
  | .ok text =>
      IO.print text
      return 0
  | .error failure =>
      IO.eprint failure.shown
      return 1

/-- Answer for arguments that name nothing to carry out, and give the exit code. -/
def refuse (error : UsageError) : IO UInt32 := do
  match error with
  | .displayHelp => IO.print usage
  | .displayVersion => IO.print version
  | _ => IO.eprint usage
  return error.exitCode.toUInt32

end CommandLine
end Hookify

/-- Run the program. -/
def main (arguments : List String) : IO UInt32 :=
  match Hookify.CommandLine.parse arguments with
  | .ok invocation => Hookify.CommandLine.perform invocation
  | .error error => Hookify.CommandLine.refuse error
