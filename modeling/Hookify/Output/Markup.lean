import Hookify.Component.Basic
import Hookify.Output.Item
import Hookify.Text.Segments

namespace Hookify
namespace Output

/-!
# Placeholder markup

The structure of the page is not known, so a component renders one element for
each of its references.  An element only shows how the states of its selector
are wired in: text and markup as content, a form value as a controlled input,
class names and styles as properties, and visibility as a condition around it.
-/

/-- An expression in braces. -/
def braced (expression : String) : String :=
  "\x7b" ++ expression ++ "\x7d"

/-- The first of some states that stands for a facet. -/
def stateFor? (facet : Facet) (states : List StateVariable) : Option StateVariable :=
  states.find? fun state =>
    match state.purpose with
    | some purpose => purpose.facet == facet
    | none => false

/-- A property of an element, if there is a state for it. -/
def property (states : List StateVariable) (facet : Facet)
    (write : StateVariable → List String) : List String :=
  match stateFor? facet states with
  | some state => write state
  | none => []

/-- The properties of the element of a reference. -/
def properties (reference : Reference) (states : List StateVariable) : List String :=
  ["ref=" ++ braced reference.identifier] ++
    property states .className (fun state => ["className=" ++ braced state.identifier]) ++
    property states .style (fun state => ["style=" ++ braced state.identifier]) ++
    property states .value (fun state =>
      ["value=" ++ braced state.identifier,
        "onChange=" ++ braced ("(event) => " ++ state.setter ++ "(event.target.value)")]) ++
    property states .content (fun state =>
      ["dangerouslySetInnerHTML=" ++ braced (braced (" __html: " ++ state.identifier ++ " "))])

/-- The element itself. Only an element that is no input and has no markup shows a text. -/
def elementText (reference : Reference) (states : List StateVariable) : String :=
  let isInput := (stateFor? .value states).isSome
  let tag := if isInput then "input" else "div"
  let opening := "<" ++ tag ++ " " ++ String.intercalate " " (properties reference states)
  let shownText :=
    if isInput || (stateFor? .content states).isSome then none else stateFor? .text states
  match shownText with
  | some state => opening ++ ">" ++ braced state.identifier ++ "</" ++ tag ++ ">"
  | none => opening ++ " />"

/-- The element of a reference, below a remark that names its selector. -/
def element (reference : Reference) (states : List StateVariable) : List Item :=
  let remark := "/* " ++ Text.replace "*/" "* /" reference.selector ++ " */"
  let shown := Item.line (elementText reference states)
  let body :=
    match stateFor? .visibility states with
    | some state => .block ("\x7b" ++ state.identifier ++ " && (") [shown] ")\x7d"
    | none => shown
  [.line (braced remark), body]

/-- What a component returns. -/
def placeholder (component : Component) : Item :=
  let children :=
    if component.references.isEmpty then [.line (braced "/* Move the page markup here */")]
    else component.references.flatMap fun reference =>
      element reference (component.statesOf reference)
  .block "return (" [.block "<div>" children "</div>"] ");"

end Output
end Hookify
