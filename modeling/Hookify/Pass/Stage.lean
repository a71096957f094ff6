import Hookify.Pass.Listeners
import Hookify.Pass.Records
import Hookify.Pass.Startup
import Hookify.Pass.Variables
import Hookify.Script.Parse

namespace Hookify

/-!
# The passes over a script

The order matters: functions come after listeners, which may have claimed them,
and states that the script declares come before those that its calls need.
Nothing a pass fails to recognise is an error; it is left out, or kept as code.
-/

/-- The passes over a script by name. -/
inductive Stage where
  | declarations
  | startup
  | listeners
  | requests
  | animations
  | functions
  | mutations
  | references
  deriving Repr, DecidableEq

namespace Stage

/-- The passes in the order in which they run. -/
def all : List Stage :=
  [.declarations, .startup, .listeners, .requests, .animations, .functions, .mutations, .references]

/-- The pass itself: it adds to a draft what it finds. -/
def run (stage : Stage) : Facts → Draft → Draft :=
  match stage with
  | .declarations => Pass.declarations
  | .startup => Pass.startup
  | .listeners => Pass.listeners
  | .requests => Pass.requests
  | .animations => Pass.animations
  | .functions => Pass.functions
  | .mutations => Pass.mutations
  | .references => Pass.references

/-- The draft after all passes. -/
def runAll (facts : Facts) (draft : Draft) : Draft :=
  all.foldl (fun draft stage => stage.run facts draft) draft

end Stage

/-- Add what a script contains to a draft. A blank script contains nothing. -/
def Draft.readScript (draft : Draft) (script : String) : Draft :=
  if Text.isBlankText script then draft
  else Stage.runAll (Facts.ofTree (Script.parse script)) draft

end Hookify
