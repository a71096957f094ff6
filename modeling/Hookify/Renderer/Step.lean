import Hookify.Renderer.Basic

namespace Hookify

open Script Selection

/-!
# Steps of a chain

What one call of a chain becomes.  A call that changes an element of the
component sets the state that owns the changed facet; on the document, the
window and `this` it changes the object itself.  A call that reads takes the
value from the state, if there is one, and from the element otherwise.
-/

/-- An expression for an element, and whether the element may be missing. -/
structure Element where
  code : String
  optional : Bool

/-- An element with the sign that a member follows. -/
def Element.access (element : Element) : String :=
  element.code ++ (if element.optional then "?." else ".")

namespace Renderer

/-- The expression for a target. -/
def element (renderer : Renderer) : Target → Element
  | .selector selector => ⟨renderer.facts.referenceName selector ++ ".current", true⟩
  | .page object => ⟨object.name, false⟩
  | .this => ⟨renderer.this.getD "this", false⟩

/-- An argument of a call. -/
def argument? (renderer : Renderer) (call : MethodCall) (index : Nat) : Option String :=
  (call.argument? index).map renderer.fragment

/-- An argument of a call, or nothing. -/
def argument (renderer : Renderer) (call : MethodCall) (index : Nat) : String :=
  (renderer.argument? call index).getD ""

/-! ## Changes -/

/-- A change of the style of an element, as members of an object. -/
def styleMembers (renderer : Renderer) (call : MethodCall) : String :=
  if call.arguments.length == 2 then
    match call.literal? 0 with
    | some property => Identifier.cssProperty property ++ ": " ++ renderer.argument call 1
    | none => "[" ++ renderer.argument call 0 ++ "]: " ++ renderer.argument call 1
  else
    "..." ++ renderer.argument call 0

/-- The new class names after a call of one of the methods for classes. -/
def classUpdate (renderer : Renderer) (call : MethodCall) : String :=
  match call.name with
  | "addClass" =>
      "(className) => [className, " ++ renderer.argument call 0 ++ "].filter(Boolean).join(' ')"
  | "removeClass" =>
      match renderer.argument? call 0 with
      | some name =>
          "(className) => className.split(' ').filter((name) => name !== " ++ name ++ ").join(' ')"
      | none => "''"
  | _ =>
      let name := renderer.argument call 0
      "(className) => \x7b const names = className.split(' ').filter(Boolean); " ++
        "return names.includes(" ++ name ++ ") ? names.filter((name) => name !== " ++ name ++
        ").join(' ') : [...names, " ++ name ++ "].join(' '); \x7d"

/-- The new value of the state that owns a facet. -/
def stateValue (renderer : Renderer) (facet : Facet) (call : MethodCall) : String :=
  match facet with
  | .visibility =>
      match call.name with
      | "show" => "true"
      | "hide" => "false"
      | _ => (renderer.argument? call 0).getD "(visible) => !visible"
  | .className => renderer.classUpdate call
  | .style => "(style) => (\x7b ...style, " ++ renderer.styleMembers call ++ " \x7d)"
  | .content | .text | .value => renderer.argument call 0

/-- A change of an element that the component owns. -/
def stateMutation (renderer : Renderer) (selector : String) (facet : Facet) (call : MethodCall) :
    String :=
  let setter := Identifier.setter (Identifier.state selector facet)
  setter ++ "(" ++ renderer.stateValue facet call ++ ")"

/-- A change of the classes of an object. -/
def classMutation (renderer : Renderer) (code : String) (call : MethodCall) : String :=
  let value := renderer.argument call 0
  match call.name with
  | "addClass" => code ++ ".classList.add(" ++ value ++ ")"
  | "removeClass" =>
      if call.arguments.isEmpty then code ++ ".className = ''"
      else code ++ ".classList.remove(" ++ value ++ ")"
  | _ => code ++ ".classList.toggle(" ++ value ++ ")"

/-- A change of the style of an object. -/
def styleMutation (renderer : Renderer) (code : String) (call : MethodCall) : String :=
  let value := renderer.argument call 0
  if call.arguments.length == 2 then
    match call.literal? 0 with
    | some property =>
        code ++ ".style." ++ Identifier.cssProperty property ++ " = " ++ renderer.argument call 1
    | none => code ++ ".style[" ++ value ++ "] = " ++ renderer.argument call 1
  else
    "Object.assign(" ++ code ++ ".style, " ++ value ++ ")"

/-- A change of an object that the component does not own. -/
def objectMutation (renderer : Renderer) (code : String) (facet : Facet) (call : MethodCall) :
    String :=
  match facet with
  | .content => code ++ ".innerHTML = " ++ renderer.argument call 0
  | .text => code ++ ".textContent = " ++ renderer.argument call 0
  | .value => code ++ ".value = " ++ renderer.argument call 0
  | .visibility =>
      match call.name with
      | "show" => code ++ ".style.display = ''"
      | "hide" => code ++ ".style.display = 'none'"
      | _ => code ++ ".style.display = " ++ code ++ ".style.display === 'none' ? '' : 'none'"
  | .className => renderer.classMutation code call
  | .style => renderer.styleMutation code call

/-! ## Reading -/

/-- The facet that a reading method reads, if a state may own it. -/
def readFacet? (method : String) : Option Facet :=
  match method with
  | "val" => some .value
  | "text" => some .text
  | "html" => some .content
  | _ => none

/-- The state that a reading call reads, if some call of the script writes it. -/
def ownedState? (renderer : Renderer) (target : Target) (method : String) : Option String :=
  match target, readFacet? method with
  | .selector selector, some facet =>
      let state := Identifier.state selector facet
      if renderer.facts.isMutated state then some state else none
  | _, _ => none

/-- A member of a part of an element whose name is a literal or an expression. -/
def memberOf (renderer : Renderer) (part : String) (call : MethodCall) : String :=
  match call.literal? 0 with
  | some name => part ++ "." ++ Identifier.cssProperty name
  | none => part ++ "[" ++ renderer.argument call 0 ++ "]"

/-- A value read from an element. -/
def elementRead (renderer : Renderer) (element : Element) (call : MethodCall) : String :=
  let access := element.access
  match call.name with
  | "val" => access ++ "value"
  | "text" => access ++ "textContent"
  | "html" => access ++ "innerHTML"
  | "css" => renderer.memberOf (access ++ "style") call
  | "attr" => access ++ "getAttribute(" ++ renderer.argument call 0 ++ ")"
  | "data" =>
      if call.arguments.isEmpty then access ++ "dataset"
      else renderer.memberOf (access ++ "dataset") call
  | _ =>
      element.code ++ (if element.optional then "?." else "") ++ "[" ++ renderer.argument call 0 ++
        "]"

/-- A call that reads. -/
def read (renderer : Renderer) (target : Target) (element : Element) (call : MethodCall) : String :=
  match renderer.ownedState? target call.name with
  | some state => state
  | none => renderer.elementRead element call

/-! ## Attributes and triggers -/

/-- A call that writes attributes, properties or data. -/
def attributeWrite (renderer : Renderer) (element : Element) (call : MethodCall) : String :=
  let code := element.code
  let access := element.access
  let name := renderer.argument call 0
  match call.name, renderer.argument? call 1 with
  | "removeAttr", _ => access ++ "removeAttribute(" ++ name ++ ")"
  | "removeProp", _ => "delete " ++ code ++ "[" ++ name ++ "]"
  | "attr", some value => access ++ "setAttribute(" ++ name ++ ", " ++ value ++ ")"
  | "attr", none =>
      "Object.entries(" ++ name ++ ").forEach(([name, value]) => " ++ access ++
        "setAttribute(name, value))"
  | "data", some value => renderer.memberOf (code ++ ".dataset") call ++ " = " ++ value
  | "data", none => "Object.assign(" ++ code ++ ".dataset, " ++ name ++ ")"
  | _, some value => code ++ "[" ++ name ++ "] = " ++ value
  | _, none => "Object.assign(" ++ code ++ ", " ++ name ++ ")"

/-- The dispatching of an event whose name is an expression. -/
def dispatch (access event : String) : String :=
  access ++ "dispatchEvent(new Event(" ++ event ++ ", \x7b bubbles: true \x7d))"

/-- A call that triggers an event. -/
def trigger (renderer : Renderer) (element : Element) (call : MethodCall) : String :=
  let access := element.access
  match call.name with
  | "submit" => access ++ "requestSubmit()"
  | "trigger" => dispatch access (renderer.argument call 0)
  | name =>
      if nativeTriggers.contains name then access ++ name ++ "()"
      else dispatch access ("'" ++ name ++ "'")

end Renderer
end Hookify
