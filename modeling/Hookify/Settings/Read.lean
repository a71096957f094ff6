import Hookify.Settings.Basic
import Hookify.Toml.Document

namespace Hookify

/-!
# Reading settings

Settings are written as a document with one table for each group.  Keys that
are not known are passed over; a known key with a value of another type, or out
of range, makes the whole document unusable.
-/

open Toml

/-- The values of a group.  A list stands for the values of the keys in their order, and a date for
no values at all. -/
def Toml.Value.group? (keys : List String) : Value → Option Fields
  | .table _ fields => some fields
  | .array values => some (keys.zip values)
  | .tables elements => some (keys.zip (elements.map (.table .header)))
  | .date => some []
  | _ => none

/-- The value of a key, read by a given reader; the default if the key is absent. -/
def setting? {Result : Type} (read? : Value → Option Result) (fields : Fields) (key : String)
    (default : Result) : Option Result :=
  match fields.lookup key with
  | some value => read? value
  | none => some default

/-- A text. -/
def Toml.Value.text? : Value → Option String
  | .text content => some content
  | _ => none

/-- A list of texts. -/
def Toml.Value.texts? : Value → Option (List String)
  | .array values => values.mapM Value.text?
  | _ => none

/-- A number that is not negative and below a bound. -/
def Toml.Value.below? (bound : Nat) : Value → Option Nat
  | .integer number => if 0 ≤ number && number < bound then some number.toNat else none
  | _ => none

namespace Settings

/-- The settings of the output. -/
def output? (value : Value) : Option OutputSettings := do
  let defaults : OutputSettings := {}
  let fields <- value.group? ["extension", "stylesheet_extension", "batch_dir"]
  some
    { extension := <- setting? Value.text? fields "extension" defaults.extension
      stylesheetExtension :=
        <- setting? Value.text? fields "stylesheet_extension" defaults.stylesheetExtension
      batchDirectory := <- setting? Value.text? fields "batch_dir" defaults.batchDirectory }

/-- The settings of a batch. -/
def batch? (value : Value) : Option BatchSettings := do
  let defaults : BatchSettings := {}
  let fields <- value.group? ["extensions", "skip_dirs", "ignore_patterns", "jobs"]
  some
    { extensions := <- setting? Value.texts? fields "extensions" defaults.extensions
      skipped := <- setting? Value.texts? fields "skip_dirs" defaults.skipped
      ignored := <- setting? Value.texts? fields "ignore_patterns" defaults.ignored
      jobs := <- setting? (Value.below? (Nat.pow 2 64)) fields "jobs" defaults.jobs }

/-- The settings of the files that pages load. -/
def resources? (value : Value) : Option ResourceSettings := do
  let defaults : ResourceSettings := {}
  let fields <- value.group? ["excluded_scripts"]
  some
    { excludedScripts :=
        <- setting? Value.texts? fields "excluded_scripts" defaults.excludedScripts }

/-- The settings of the complexity. -/
def complexity? (value : Value) : Option Weights := do
  let defaults : Weights := {}
  let fields <- value.group?
    ["selector", "handler", "mutation", "remote_call", "animation", "style_mutation", "high",
      "medium"]
  let weight := setting? (Value.below? (Nat.pow 2 32)) fields
  some
    { selector := <- weight "selector" defaults.selector
      handler := <- weight "handler" defaults.handler
      mutation := <- weight "mutation" defaults.mutation
      remoteCall := <- weight "remote_call" defaults.remoteCall
      animation := <- weight "animation" defaults.animation
      styleMutation := <- weight "style_mutation" defaults.styleMutation
      high := <- weight "high" defaults.high
      medium := <- weight "medium" defaults.medium }

/-- The settings that a document describes. -/
def read? (document : String) : Option Settings := do
  let fields <- Toml.read? document
  some
    { output := <- setting? output? fields "output" {}
      batch := <- setting? batch? fields "batch" {}
      resources := <- setting? resources? fields "resources" {}
      complexity := <- setting? complexity? fields "complexity" {} }

end Settings
end Hookify
