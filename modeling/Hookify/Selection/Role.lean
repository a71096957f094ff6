import Hookify.Component.Facet
import Hookify.Script.Kind

namespace Hookify
namespace Selection

open Script

/-!
# Roles of methods

What a method does with the selected elements.  For most methods the name
decides; some also look at their arguments, since the same method reads with
fewer arguments and writes with more.
-/

/-- What a method call does. -/
inductive Role where
  | binding
  | mutation (facet : Facet)
  | read
  | animation
  | trigger
  | attributeWrite
  | traversal
  | ready
  | unknown
  deriving Repr, DecidableEq

/-- A role in words. -/
def Role.label : Role → String
  | .binding => "binding"
  | .mutation facet => "mutation:" ++ facet.label
  | .read => "read"
  | .animation => "animation"
  | .trigger => "trigger"
  | .attributeWrite => "attribute_write"
  | .traversal => "traversal"
  | .ready => "ready"
  | .unknown => "unknown"

/-- Events that have a method of their own: with arguments it binds, without it triggers. -/
def eventMethods : List String :=
  [ "click", "dblclick", "submit", "change", "input", "keyup", "keydown", "keypress", "focus",
    "blur", "focusin", "focusout", "mouseenter", "mouseleave", "mouseover", "mouseout",
    "mousedown", "mouseup", "mousemove", "scroll", "resize", "contextmenu" ]

/-- Methods that bind an event named by an argument. -/
def bindingMethods : List String :=
  ["on", "bind", "one", "delegate", "live", "hover"]

/-- Methods that move or fade elements. -/
def animationMethods : List String :=
  [ "fadeIn", "fadeOut", "fadeToggle", "fadeTo", "slideUp", "slideDown", "slideToggle",
    "animate", "stop", "delay" ]

/-- Methods that lead to other elements. -/
def traversalMethods : List String :=
  [ "find", "children", "closest", "parent", "parents", "siblings", "next", "prev", "first",
    "last", "eq", "filter", "not", "end", "each", "map", "add" ]

/-- Triggers that elements offer as methods of the same name. -/
def nativeTriggers : List String :=
  ["click", "focus", "blur", "select"]

/-- The methods that bind events, whatever their arguments. -/
def isBindingMethod (name : String) : Bool :=
  ["on", "bind", "one", "live", "delegate", "hover"].contains name || eventMethods.contains name

/-- The role of a method whose name alone decides. -/
def namedRole (name : String) (count : Nat) : Role :=
  if bindingMethods.contains name then .binding
  else if eventMethods.contains name then if count == 0 then .trigger else .binding
  else if animationMethods.contains name then .animation
  else if traversalMethods.contains name then .traversal
  else .unknown

/-- A method writes if it has two arguments, or an object as its only one. -/
def writes : List Kind → Bool
  | [] => false
  | [only] => only == .object
  | _ => true

/-- The role of a method with arguments of the given kinds. -/
def roleOf (name : String) (arguments : List Kind) : Role :=
  let count := arguments.length
  match name with
  | "html" => if count == 0 then .read else .mutation .content
  | "text" => if count == 0 then .read else .mutation .text
  | "val" => if count == 0 then .read else .mutation .value
  | "show" | "hide" => if count == 0 then .mutation .visibility else .animation
  | "toggle" => if count ≤ 1 then .mutation .visibility else .animation
  | "addClass" | "removeClass" | "toggleClass" => .mutation .className
  | "css" => if writes arguments then .mutation .style else .read
  | "attr" | "prop" | "data" => if writes arguments then .attributeWrite else .read
  | "removeAttr" | "removeProp" => .attributeWrite
  | "ready" => .ready
  | "trigger" => .trigger
  | _ => namedRole name count

/-- Advice on what to put in the place of an animation. -/
def suggestion (method : String) : String :=
  match method with
  | "fadeIn" | "fadeOut" | "fadeToggle" | "fadeTo" =>
      "Replace with a CSS opacity transition (e.g. transition: opacity 300ms) " ++
        "toggled by a state-driven class"
  | "slideUp" | "slideDown" | "slideToggle" =>
      "Replace with a CSS max-height or transform transition toggled by a state-driven class"
  | "animate" =>
      "Move the animated properties into CSS transitions or keyframes, " ++
        "or use an animation library such as framer-motion"
  | "stop" | "delay" =>
      "Express timing with CSS transition-delay and transition-duration instead of queue control"
  | _ => "Replace the animated show/hide with conditional rendering plus a CSS transition"

end Selection
end Hookify
