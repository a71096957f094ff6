import Hookify.Renderer.Animation
import Hookify.Renderer.Step
import Hookify.Request.Fetch

namespace Hookify

open Script Selection

/-!
# Idioms

The nodes that are replaced as a whole: requests, helper functions with a
standard equivalent, selections with their calls, assignments to variables
that have become states, and `this` where something else stands for it.
-/

namespace Renderer

/-! ## Chains -/

/-- What a call of a chain becomes; none if the call is kept as it is. -/
def step? (renderer : Renderer) (target : Target) (element : Element) (isStatement : Bool)
    (call : MethodCall) : Option String :=
  match call.role with
  | .mutation facet =>
      match target with
      | .selector selector => some (renderer.stateMutation selector facet call)
      | _ => some (renderer.objectMutation element.code facet call)
  | .read => some (renderer.read target element call)
  | .attributeWrite => some (renderer.attributeWrite element call)
  | .trigger => some (renderer.trigger element call)
  | .animation => some (renderer.animation target isStatement call)
  | .binding | .traversal | .ready | .unknown => none

/-- Several steps as one piece of code: as statements, or as one expression in parentheses. -/
def joinSteps (isStatement : Bool) : List String → String
  | [single] => single
  | steps =>
      if isStatement then String.intercalate ";\n" steps
      else "(" ++ String.intercalate ", " steps ++ ")"

/-- A chain is replaced only if each of its calls is. -/
def chain? (renderer : Renderer) (chain : Chain) (head : Place) : Option String :=
  let element := renderer.element chain.target
  if chain.calls.isEmpty then
    some element.code
  else
    let isStatement := (head.parent?.map (·.kind == .expressionStatement)).getD false
    (chain.calls.mapM (renderer.step? chain.target element isStatement)).map
      (joinSteps isStatement)

/-! ## Helper functions -/

/-- The name of a helper function that a call uses: a method of the selecting function itself. -/
def helperName? (place : Place) : Option String := do
  let function ← place.child? .function
  guard (function.kind == .memberExpression)
  let object ← function.child? .object
  guard (object.kind == .identifier && isSelectName object.text)
  let property ← function.child? .property
  return property.text

/-- The standard equivalent of a helper function, if it has one. A leading `true` asks for a deep
merge, of which the flat one is the closest standard form. -/
def helper? (renderer : Renderer) (place : Place) : Option String := do
  let name ← helperName? place
  let arguments := callArguments place
  let argument := fun (index : Nat) => ((arguments[index]?).map renderer.fragment).getD ""
  match name with
  | "trim" => some ("String(" ++ argument 0 ++ ").trim()")
  | "isArray" => some ("Array.isArray(" ++ argument 0 ++ ")")
  | "parseJSON" => some ("JSON.parse(" ++ argument 0 ++ ")")
  | "isFunction" => some ("typeof " ++ argument 0 ++ " === 'function'")
  | "now" => some "Date.now()"
  | "inArray" => some (argument 1 ++ ".indexOf(" ++ argument 0 ++ ")")
  | "extend" =>
      let texts := arguments.map renderer.fragment
      let merged := if argument 0 == "true" then texts.drop 1 else texts
      some ("Object.assign(" ++ String.intercalate ", " merged ++ ")")
  | _ => none

/-! ## Assignments -/

/-- The variable that a node assigns to, with the sign of the assignment. -/
def assignment? (place : Place) : Option (Place × String) := do
  let target ← place.child? (if place.kind == .updateExpression then .argument else .left)
  let plain := if place.kind == .updateExpression then "++" else "="
  return (target, ((place.child? .operator).map (·.text)).getD plain)

/-- The sign of an operation whose result is assigned, without the sign of the assignment. -/
def operationSign (sign : String) : String :=
  String.ofList ((sign.toList.reverse.dropWhile (· == '=')).reverse)

/-- An assignment to a variable that has become a state. -/
def stateUpdate? (renderer : Renderer) (place : Place) : Option String := do
  let (target, sign) ← assignment? place
  guard (target.kind == .identifier)
  let name := target.text
  guard (renderer.facts.isReactiveVariable name)
  let setter := Identifier.setter name
  if place.kind == .updateExpression then
    let operation := if sign == "--" then " - 1)" else " + 1)"
    return setter ++ "((" ++ name ++ ") => " ++ name ++ operation
  else
    let right ← place.child? .right
    let value := renderer.fragment right
    if sign == "=" then
      return setter ++ "(" ++ value ++ ")"
    else
      return setter ++ "((" ++ name ++ ") => " ++ name ++ " " ++ operationSign sign ++ " (" ++
        value ++ "))"

/-! ## The choice -/

/-- A call: as a request, as a helper function, or as a chain. -/
def call? (renderer : Renderer) (place : Place) : Option String :=
  match renderer.facts.request? place with
  | some request => some (renderer.fetch request)
  | none =>
      match renderer.helper? place with
      | some text => some text
      | none =>
          match renderer.facts.chain? place with
          | some chain =>
              if ! chain.calls.isEmpty && ! isHead place then none else renderer.chain? chain place
          | none => none

/-- What a node becomes if it is an idiom. -/
def idiom? (renderer : Renderer) (place : Place) : Option String :=
  match place.kind with
  | .callExpression => renderer.call? place
  | .assignmentExpression | .augmentedAssignmentExpression | .updateExpression =>
      renderer.stateUpdate? place
  | .this => renderer.this
  | _ => none

end Renderer
end Hookify
