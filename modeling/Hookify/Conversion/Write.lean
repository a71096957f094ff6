import Hookify.Conversion.Basic
import Hookify.Conversion.Copies
import Hookify.Files.Access

namespace Hookify

/-!
# Writing a conversion

A file is read, converted, and written as a component with its stylesheet.  The
files that a page loads are copied beside it, scripts into a directory of their
own.  A file that does not exist is not copied, which is no failure.
-/

/-- What has been written for a file. -/
structure WrittenConversion where
  input : Path
  output : Path
  component : String
  stats : Stats
  warnings : Nat
  /-- The files that have been written, the component first. -/
  written : List Path
  /-- Files that the page loads but that do not exist. -/
  missing : List Path
  copies : List Copy
  deriving Repr, DecidableEq

/-- Write the stylesheet of a component beside it. -/
def writeStylesheet (output : Path) (stylesheet : Option Output.Stylesheet) :
    FileAction (List Path) := do
  match stylesheet with
  | some sheet =>
      let path := output.withFileName sheet.name
      FileAction.write path (.text sheet.contents)
      return [path]
  | none => return []

/-- What there is to tell about a conversion that has been written: among others, which of the files
that the page loads exist in a tree, and where they are to be copied. -/
def Conversion.written (conversion : Conversion) (input output resourceRoot : Path)
    (sheets : List Path) (tree : FileTree) : WrittenConversion :=
  let resources := conversion.component.resources
  let found := resources.filter fun resource => tree.holdsFile resource.path
  let absent := resources.filter fun resource => ! tree.holdsFile resource.path
  { input := input
    output := output
    component := conversion.component.name
    stats := conversion.component.stats
    warnings := conversion.component.warnings.length
    written := output :: sheets
    missing := absent.map (·.path)
    copies := found.filterMap fun resource =>
      (resource.destination? resourceRoot).map fun destination => ⟨resource.path, destination⟩ }

/-- Convert a file and write the component and its stylesheet. What is to be copied is only told. -/
def writeConversion (settings : Settings) (input output resourceRoot : Path) :
    FileAction WrittenConversion := do
  let document := Document.new (<- FileAction.readText input) input
  let conversion := document.convert settings
  FileAction.write output (.text conversion.generated.code)
  let sheets <- writeStylesheet output conversion.generated.stylesheet
  return conversion.written input output resourceRoot sheets (<- get).tree

/-- Make copies in their order; tells where they are. -/
def makeCopies (copies : List Copy) : FileAction (List Path) :=
  copies.mapM fun copy => do
    FileAction.copy copy.source copy.destination
    return copy.destination

/-- Convert a file, and copy what it loads. -/
def convertFile (settings : Settings) (input output resourceRoot : Path) :
    FileAction WrittenConversion := do
  let result <- writeConversion settings input output resourceRoot
  let copied <- makeCopies (CopyPlan.of result.copies).planned
  return { result with written := result.written ++ copied }

/-- What has been done about a file, in words. -/
def WrittenConversion.lines (result : WrittenConversion) : List String :=
  let stats := result.stats
  let output := result.output.text
  [ "Converted " ++ result.input.text ++ " -> " ++ output ++ " (" ++ result.component ++ ")",
    "  " ++ toString stats.selectors ++ " selectors, " ++ toString stats.handlers ++
      " handlers, " ++ toString stats.mutations ++ " mutations, " ++
      toString stats.styleMutations ++ " style mutations, " ++ toString stats.remoteCalls ++
      " remote calls, " ++ toString stats.animations ++ " animations" ] ++
    (result.written.drop 1).map (fun path => "  wrote " ++ path.text) ++
    result.missing.map (fun path => "  skipped " ++ path.text ++ " not found, not copied") ++
    (if 0 < result.warnings || 0 < stats.animations then
      ["  review: see the conversion report at the end of " ++ output] else [])

end Hookify
