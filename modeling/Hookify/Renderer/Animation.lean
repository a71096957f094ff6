import Hookify.Renderer.Basic

namespace Hookify

open Script Selection

/-!
# Animations

Animations are not converted.  A comment that names the call takes its place,
and the report repeats the name with advice.
-/

namespace Animation

/-- The longest text of an argument that is shown in full. -/
def maxArgument : Nat := 40

/-- An argument on one line, cut if it is long. -/
def summarizeArgument (argument : Place) : String :=
  if argument.kind.isFunctionLike then
    "callback"
  else
    let flat := (Text.flatten argument.text).toList
    if flat.length > maxArgument then String.ofList (flat.take maxArgument) ++ "..."
    else String.ofList flat

/-- The record of an animating call. -/
def ofCall (target : Target) (call : MethodCall) : Animation where
  selector := target.label
  method := call.name
  arguments := String.intercalate ", " (call.arguments.map summarizeArgument)
  suggestion := Selection.suggestion call.name

/-- The comment that takes the place of an animating call. -/
def comment (animation : Animation) : String :=
  "/* " ++ animation.label ++ ": animation not translated, see conversion report */"

end Animation

namespace Renderer

/-- A text without a semicolon at its end. -/
def dropSemicolon (text : String) : String :=
  let chars := Text.trimEndChars text.toList
  if chars.getLast? == some ';' then String.ofList chars.dropLast else String.ofList chars

/-- A call that animates.  In a statement, the body of a function that would run afterwards is
kept; the statement has a semicolon of its own. -/
def animation (renderer : Renderer) (target : Target) (isStatement : Bool) (call : MethodCall) :
    String :=
  let comment := (Animation.ofCall target call).comment
  if isStatement then
    match call.arguments.getLast?.filter (·.kind.isFunctionLike) with
    | some callback => comment ++ "\n" ++ dropSemicolon (renderer.functionBody callback)
    | none => comment
  else
    "void 0 " ++ comment

end Renderer
end Hookify
