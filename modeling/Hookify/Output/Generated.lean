import Hookify.Files.Output
import Hookify.Output.Item
import Hookify.Output.Markup
import Hookify.Output.Report

namespace Hookify
namespace Output

/-!
# Generated files

A component is written as one file, with its report at the end.  If the page
had styles of its own, they become a stylesheet beside it, which the component
imports.  Writing cannot fail: everything that a component holds is arranged in
a fixed order, and within each kind in the order of discovery.
-/

/-- The imports: the framework with what the component needs from it, and the stylesheet. -/
def imports (component : Component) (stylesheet : Option String) : List Item :=
  let hooks :=
    ([.statefulValue, .sideEffect, .stableReference].filter component.needs).map Capability.hook
  let framework :=
    if hooks.isEmpty then "import React from 'react';"
    else "import React, " ++ braced (" " ++ String.intercalate ", " hooks ++ " ") ++
      " from 'react';"
  .line framework :: stylesheet.toList.map fun name => .line ("import './" ++ name ++ "';")

/-- The comment above the component. -/
def header (component : Component) : Item :=
  .doc
    [ component.name,
      "",
      "Converted from " ++ component.source ++ " by jq2react.",
      "See the conversion report at the end of this file." ]

/-- A constant of the component. -/
def constant (state : StateVariable) : Item :=
  .code ("const " ++ state.identifier ++ " = " ++ state.initial ++ ";")

/-- A state of the component, with a remark on what it stands for. -/
def reactive (state : StateVariable) : Item :=
  let declaration :=
    "const [" ++ state.identifier ++ ", " ++ state.setter ++ "] = useState(" ++
      state.initial ++ ");"
  match state.purpose with
  | some purpose =>
      .code (declaration ++ " // " ++ purpose.facet.label ++ " of " ++ purpose.selector)
  | none => .code declaration

/-- A reference of the component. -/
def reference (reference : Reference) : Item :=
  .line ("const " ++ reference.identifier ++ " = useRef(null);")

/-- A body in braces behind its head; a blank body stays on the line. -/
def braces (head body closing : String) : Item :=
  if Text.isBlankText body then .line (head ++ "\x7b" ++ closing)
  else .block (head ++ "\x7b") [.code body] closing

/-- A handler of the component. -/
def handler (handler : Handler) : Item :=
  braces ("const " ++ handler.name ++ " = (" ++ handler.parameters ++ ") => ") handler.body
    "\x7d;"

/-- A function of the component. -/
def function (function : NamedFunction) : Item :=
  let keyword := if function.isAsync then "async function " else "function "
  braces (keyword ++ function.name ++ "(" ++ function.parameters ++ ") ") function.body "\x7d"

/-- An effect of the component below its description. -/
def effect (effect : Effect) : List Item :=
  [ .comment effect.description,
    .block "useEffect(() => \x7b" [.code effect.code]
      ("\x7d, [" ++ String.intercalate ", " effect.dependencies ++ "]);") ]

/-- The body of the component. -/
def body (component : Component) : List Item :=
  separated
    [ component.constants.map constant,
      component.reactiveStates.map reactive,
      component.references.map reference,
      separated (component.handlers.map fun found => [handler found]),
      separated (component.functions.map fun found => [function found]),
      separated (component.effects.map effect),
      [placeholder component] ]

/-- The items of the file of a component. -/
def items (component : Component) (stylesheet : Option String) (report : Report) : List Item :=
  separated
    [ imports component stylesheet,
      [ header component,
        .block ("export default function " ++ component.name ++ "() \x7b") (body component)
          "\x7d" ],
      [.doc report.lines] ]

/-- A file with the styles of a page. -/
structure Stylesheet where
  name : String
  contents : String
  deriving Repr, DecidableEq

/-- What is written for a component. -/
structure Generated where
  component : String
  code : String
  stylesheet : Option Stylesheet
  report : Report
  deriving Repr, DecidableEq

/-- The stylesheet of a component, if it has any styles. -/
def stylesheetOf (component : Component) (extension : String) : Option Stylesheet :=
  (component.styles.filter (! Text.isBlankText ·)).map fun styles =>
    { name := stylesheetName ⟨component.source⟩ extension
      contents := Text.dedent (Text.tidy styles) ++ "\n" }

/-- Write a component. -/
def generate (component : Component) (stylesheetExtension : String) : Generated :=
  let stylesheet := stylesheetOf component stylesheetExtension
  let name := stylesheet.map (·.name)
  let report := Report.of component name
  { component := component.name
    code := print (items component name report)
    stylesheet := stylesheet
    report := report }

end Output
end Hookify
