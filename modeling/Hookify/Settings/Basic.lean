namespace Hookify

/-!
# Settings

What can be chosen about a conversion.  Everything has a default, and the
defaults alone are a complete choice.
-/

/-- How generated files are named, and where those of a batch go. -/
structure OutputSettings where
  extension : String := "jsx"
  stylesheetExtension : String := "css"
  batchDirectory : String := "react-components"
  deriving Repr, DecidableEq

/-- Which files a batch consists of, and how many are worked on at once. -/
structure BatchSettings where
  extensions : List String := ["js", "html", "htm"]
  /-- Names of directories that are not entered. -/
  skipped : List String :=
    ["node_modules", ".git", ".svn", ".hg", "dist", "build", "vendor", "bower_components",
      "target"]
  /-- Patterns of paths to be left alone. -/
  ignored : List String := []
  /-- The number of workers; none means as many as there are processors. -/
  jobs : Nat := 0
  deriving Repr, DecidableEq

/-- Which files that a page loads are copied. -/
structure ResourceSettings where
  /-- Parts of the names of libraries that a component has no use for. -/
  excludedScripts : List String :=
    ["jquery", "bootstrap", "popper", "lodash", "underscore", "moment"]
  deriving Repr, DecidableEq

/-- How much each thing counts towards the complexity of a script, and which sums are high. -/
structure Weights where
  selector : Nat := 1
  handler : Nat := 2
  mutation : Nat := 2
  remoteCall : Nat := 3
  animation : Nat := 2
  styleMutation : Nat := 1
  /-- A sum above this is high. -/
  high : Nat := 20
  /-- A sum from this on is at least medium. -/
  medium : Nat := 10
  deriving Repr, DecidableEq

/-- All that can be chosen. -/
structure Settings where
  output : OutputSettings := {}
  batch : BatchSettings := {}
  resources : ResourceSettings := {}
  complexity : Weights := {}
  deriving Repr, DecidableEq

namespace Settings

/-!
## The settings file

The file that holds the settings of a directory, and its contents when it is
written for the first time.  It says what the defaults are, and it leaves
minified scripts alone in addition.
-/

/-- The name of the settings file of a directory. -/
def fileName : String := ".jq2react.toml"

/-- The contents of a new settings file. -/
def template : String :=
  "# jq2react configuration\n\n" ++
  "[output]\n" ++
  "extension = \"jsx\"\n" ++
  "stylesheet_extension = \"css\"\n" ++
  "batch_dir = \"react-components\"\n\n" ++
  "[batch]\n" ++
  "extensions = [\"js\", \"html\", \"htm\"]\n" ++
  "skip_dirs = [\"node_modules\", \".git\", \".svn\", \".hg\", \"dist\", \"build\", " ++
    "\"vendor\", \"bower_components\", \"target\"]\n" ++
  "ignore_patterns = [\"**/*.min.js\"]\n" ++
  "jobs = 0\n\n" ++
  "[resources]\n" ++
  "# UI libraries with no component equivalent; matching scripts are not copied\n" ++
  "excluded_scripts = [\"jquery\", \"bootstrap\", \"popper\", \"lodash\", \"underscore\", " ++
    "\"moment\"]\n\n" ++
  "[complexity]\n" ++
  "selector = 1\n" ++
  "handler = 2\n" ++
  "mutation = 2\n" ++
  "remote_call = 3\n" ++
  "animation = 2\n" ++
  "style_mutation = 1\n" ++
  "high = 20\n" ++
  "medium = 10\n"

end Settings
end Hookify
