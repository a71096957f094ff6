import Hookify.Component.Draft
import Hookify.Renderer.Replace

namespace Hookify
namespace Pass

open Script Selection

/-!
# Listeners

An event that a scope binds becomes a handler, together with an effect that
adds the listener on mount and removes it again.  A function that is only ever
bound to events turns into the handler itself; one that is also used elsewhere
stays, and the handler calls it.
-/

/-- An event with the expression for its handler. -/
structure Binding where
  event : String
  /-- The child whose events are handled by its ancestor. -/
  delegate : Option String
  handler : Place
  once : Bool

/-! ## The bindings of a call -/

/-- The events of a list, without namespaces: `click.menu touchstart` names two. -/
def eventNames (list : String) : List String :=
  ((Text.words list).map fun word => String.ofList (word.toList.takeWhile (· != '.'))).filter
    (! ·.isEmpty)

/-- The events of an argument that is a literal. -/
def literalEvents (call : MethodCall) (index : Nat) : List String :=
  ((call.literal? index).map eventNames).getD []

/-- One handler for several events. -/
def bindAll (events : List String) (delegate : Option String) (once : Bool)
    (handler : Option Place) : List Binding :=
  match handler with
  | some place => events.map fun event => ⟨event, delegate, place, once⟩
  | none => []

/-- Handlers for entering and leaving an element; one function may serve for both. -/
def hoverBindings (call : MethodCall) : List Binding :=
  match call.argument? 0 with
  | none => []
  | some enter =>
      let leave := (call.argument? 1).getD enter
      [⟨"mouseenter", none, enter, false⟩, ⟨"mouseleave", none, leave, false⟩]

/-- Handlers given as an object from events to functions. -/
def mapBindings (call : MethodCall) (once : Bool) (object : Place) : List Binding :=
  (object.namedChildren.filter (·.kind == .pair)).flatMap fun entry =>
    let events := ((entry.child? .key).map fun key => eventNames (Text.unquote key.text)).getD []
    bindAll events (call.literal? 1) once (entry.child? .value)

/-- Handlers of the general methods. -/
def generalBindings (call : MethodCall) : List Binding :=
  let once := call.name == "one"
  match call.argument? 0 with
  | none => []
  | some first =>
      if first.kind == .object then
        mapBindings call once first
      else
        let mayDelegate := (call.name == "on" || call.name == "one") && 3 ≤ call.arguments.length
        let delegate := if mayDelegate then call.literal? 1 else none
        bindAll (literalEvents call 0) delegate once (call.arguments.drop 1).getLast?

/-- The bindings of a call. -/
def bindingsOf (call : MethodCall) : List Binding :=
  match call.name with
  | "hover" => hoverBindings call
  | "delegate" =>
      bindAll (literalEvents call 1) (call.literal? 0) false (call.arguments.drop 2).getLast?
  | "on" | "bind" | "one" | "live" => generalBindings call
  | name =>
      if eventMethods.contains name then bindAll [name] none false call.arguments.getLast? else []

/-! ## Handlers -/

/-- The arguments that a value is passed in, directly or as a value of an object. -/
def enclosingArguments? (place : Place) : Option Place := do
  let parent ← place.parent?
  if parent.kind == .pair then
    guard (place.field == some .value)
    let object ← parent.parent?
    object.parent?
  else
    return parent

/-- A value is passed to a method that binds events. -/
def isBindingArgument (place : Place) : Bool :=
  let name : Option String := do
    let arguments ← enclosingArguments? place
    guard (arguments.kind == .arguments)
    let call ← arguments.parent?
    let function ← call.child? .function
    guard (function.kind == .memberExpression)
    let property ← function.child? .property
    return property.text
  (name.map isBindingMethod).getD false

/-- A name stands where it is declared. -/
def isDeclaredName (place : Place) : Bool :=
  place.field == some .name &&
    match place.parent? with
    | some parent => parent.kind == .functionDeclaration || parent.kind == .variableDeclarator
    | none => false

/-- A name is used other than in its declaration and as a handler. -/
def isUsedElsewhere (facts : Facts) (name : String) : Bool :=
  facts.root.walk.any fun place =>
    place.kind == .identifier && place.text == name && ! isDeclaredName place &&
      ! isBindingArgument place

/-- What a handler expression stands for. -/
inductive HandlerSource where
  /-- A function written in place. -/
  | inline (function : Place)
  /-- A named function that only serves as a handler. -/
  | claimed (name : String) (function : Place)
  /-- An expression that is called with the event. -/
  | called (code : String)
  | notCallable

/-- What a handler expression stands for. -/
def handlerSource (facts : Facts) (handler : Place) : HandlerSource :=
  if handler.kind.isFunctionLike then
    .inline handler
  else if handler.kind == .identifier then
    match facts.function? handler.text with
    | some function =>
        if isUsedElsewhere facts handler.text then .called handler.text
        else .claimed handler.text function
    | none => .called handler.text
  else if handler.kind == .memberExpression then
    .called handler.text
  else
    .notCallable

/-- The parameters and the body of a handler made from a function.  There `this` is the element
that listens, or the child that the event was delegated for. -/
def handlerOfFunction (facts : Facts) (delegate : Option String) (function : Place) :
    String × String :=
  let declared := parametersText function
  let parameters := if declared.isEmpty then "event" else declared
  let event := (firstParameter? parameters).getD "event"
  let this :=
    match delegate with
    | some child => event ++ ".target.closest(" ++ Text.quote child ++ ")"
    | none => event ++ ".currentTarget"
  (parameters, (Renderer.of facts (some this)).functionBody function)

/-- The parameters and the body of a handler. -/
def handlerParts? (facts : Facts) (delegate : Option String) :
    HandlerSource → Option (String × String)
  | .inline function | .claimed _ function => some (handlerOfFunction facts delegate function)
  | .called code => some ("event", code ++ "(event);")
  | .notCallable => none

/-! ## Effects -/

/-- The code that adds a listener on mount and removes it again. -/
def listenerCode (target : ListenerTarget) (event handler : String) (delegate : Option String)
    (once : Bool) : String :=
  let (element, found) :=
    match target with
    | .reference identifier =>
        ("element",
          "const element = " ++ identifier ++ ".current;\nif (!element) return undefined;\n")
    | .page object => (object.name, "")
  let (listener, setup) :=
    match delegate with
    | some child =>
        ("listener",
          "const listener = (event) => \x7b\n  if (event.target.closest(" ++ Text.quote child ++
            ")) \x7b\n    " ++ handler ++ "(event);\n  \x7d\n\x7d;\n")
    | none => (handler, "")
  let options := if once then ", \x7b once: true \x7d" else ""
  let arguments := "(" ++ Text.quote event ++ ", " ++ listener ++ options ++ ");"
  found ++ setup ++ element ++ ".addEventListener" ++ arguments ++ "\nreturn () => \x7b\n" ++
    Text.indent "  " (element ++ ".removeEventListener" ++ arguments) ++ "\n\x7d;"

/-- What listens for a target, with its selector; `this` outside of handlers is nothing. -/
def listenerTarget? (facts : Facts) (draft : Draft) :
    Target → Option (Draft × String × ListenerTarget)
  | .selector selector =>
      let (draft, identifier) :=
        draft.ensureReferenceNamed selector (facts.referenceName selector)
      some (draft, selector, .reference identifier)
  | .page object => some (draft, object.name, .page object)
  | .this => none

/-- Add the handler of a binding whose parameters and body are known. -/
def addBinding (facts : Facts) (target : Target) (binding : Binding) (parameters body : String)
    (draft : Draft) : Draft :=
  match listenerTarget? facts draft target with
  | none => draft
  | some (draft, owner, listening) =>
      let name := Identifier.handler owner binding.delegate binding.event
      let handler : Handler :=
        { selector := binding.delegate.getD owner
          event := binding.event
          name := name
          parameters := parameters
          body := body
          parent := binding.delegate.map fun _ => owner
          target := listening
          once := binding.once }
      (draft.addHandler handler
        (listenerCode listening binding.event name binding.delegate binding.once)).1

/-- Note that a function has become a handler. -/
def HandlerSource.claim (source : HandlerSource) (draft : Draft) : Draft :=
  match source with
  | .claimed name _ => draft.claim name
  | _ => draft

/-- Add a binding, or a warning if its handler cannot be called. -/
def register (facts : Facts) (target : Target) (draft : Draft) (binding : Binding) : Draft :=
  let source := handlerSource facts binding.handler
  match handlerParts? facts binding.delegate source with
  | some (parameters, body) =>
      addBinding facts target binding parameters body (source.claim draft)
  | none =>
      draft.addWarning (binding.event ++ " event handler on " ++ target.label ++
        " is not a function and was not converted")

/-- The chain of a statement that may bind events. -/
def bindingChain? (facts : Facts) (statement : Place) : Option Chain :=
  if introducesScope statement then none
  else
    ((statementExpression? statement).bind facts.chain?).filter (·.target != .this)

/-- Add the events that scopes bind. -/
def listeners (facts : Facts) (draft : Draft) : Draft :=
  (facts.statements.filterMap (bindingChain? facts)).foldl (fun draft chain =>
    ((chain.effective.filter (·.role == .binding)).flatMap bindingsOf).foldl
      (register facts chain.target) draft) draft

end Pass
end Hookify
