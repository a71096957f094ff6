import Hookify.Component.Basic

namespace Hookify

/-!
# Reports

A report says how much was found in a script and what is left to be done by
hand: each animation with advice, each warning, and a checklist.  It stands at
the end of the generated file.
-/

/-- An animation that was not carried over, with advice on what to put in its place. -/
structure AnimationNote where
  usage : String
  suggestion : String
  deriving Repr, DecidableEq

/-- What is to be said about the conversion of a script. -/
structure Report where
  source : String
  component : String
  stats : Stats
  animations : List AnimationNote
  warnings : List String
  checklist : List String
  deriving Repr, DecidableEq

namespace Report

/-- A number of things in words. -/
def count (number : Nat) (one many : String) : String :=
  toString number ++ " " ++ if number == 1 then one else many

/-- What is to be done about a file that the page loads. -/
def resourceTask (resource : Resource) : String :=
  let name := resource.path.fileName?.getD resource.reference
  match resource.kind with
  | .stylesheet => "Import the copied stylesheet " ++ name ++ " where the app starts"
  | .script => "Convert or import the copied script utils/" ++ name

/-- What is left to be done for a component with the given stylesheet. -/
def tasks (component : Component) (stylesheet : Option String) : List String :=
  ["Replace the placeholder markup with the real page structure and keep the ref attributes"] ++
    (if component.handlers.isEmpty then [] else
      ["Check that each listener effect is attached to the element it was written for"]) ++
    (if component.handlers.any (·.parent.isSome) then
      ["Delegated handlers still filter on the child selector; " ++
        "consider moving them onto the child elements"] else []) ++
    (if component.remoteCalls.isEmpty then [] else
      ["Review " ++ count component.remoteCalls.length "fetch call" "fetch calls" ++
        ": request bodies are now sent as JSON"]) ++
    (if component.animations.isEmpty then [] else
      ["Recreate " ++ count component.animations.length "animation" "animations" ++
        " listed above with CSS or an animation library"]) ++
    (if component.warnings.isEmpty then [] else
      ["Resolve " ++ count component.warnings.length "warning" "warnings" ++ " listed above"]) ++
    (if component.reactiveStates.any (·.purpose.isNone) then
      ["Confirm which reassigned variables are rendered; " ++
        "the others can become refs or plain variables"] else []) ++
    (stylesheet.toList.map ("Check the embedded styles moved to " ++ ·)) ++
    component.resources.map resourceTask

/-- The report on a component with the given stylesheet. -/
def of (component : Component) (stylesheet : Option String) : Report where
  source := component.source
  component := component.name
  stats := component.stats
  animations := component.animations.map fun animation => ⟨animation.label, animation.suggestion⟩
  warnings := component.warnings
  checklist := tasks component stylesheet

/-- A section of a report; without entries there is none. -/
def listed (title : String) (entries : List String) : List String :=
  if entries.isEmpty then [] else ["", title] ++ entries

/-- The report as text, line by line. -/
def lines (report : Report) : List String :=
  [ "Conversion report for " ++ report.source,
    "",
    "Selectors:       " ++ toString report.stats.selectors,
    "Event handlers:  " ++ toString report.stats.handlers,
    "DOM mutations:   " ++ toString report.stats.mutations,
    "Style mutations: " ++ toString report.stats.styleMutations,
    "Remote calls:    " ++ toString report.stats.remoteCalls,
    "Animations:      " ++ toString report.stats.animations ] ++
    listed "Animations (not translated):"
      (report.animations.map fun note => "  - " ++ note.usage ++ ": " ++ note.suggestion) ++
    listed "Warnings:" (report.warnings.map ("  - " ++ ·)) ++
    ["", "Checklist:"] ++ report.checklist.map ("  [ ] " ++ ·)

end Report
end Hookify
