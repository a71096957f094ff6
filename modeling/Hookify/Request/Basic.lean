import Hookify.Facts.Basic

namespace Hookify

open Script Selection

/-!
# Requests

A request for remote data is a call of `$.ajax` or one of its short forms,
together with the continuations chained directly onto it.  A request is
described by syntax nodes; later settings and later continuations replace
earlier ones of the same kind.
-/

/-- A request with the nodes that describe it. -/
structure Request where
  kind : RequestKind
  url : Option Place := none
  method : Option Place := none
  data : Option Place := none
  success : Option Place := none
  error : Option Place := none
  complete : Option Place := none
  dataType : Option String := none

/-- Methods of a request that say what happens with the answer. -/
def continuationMethods : List String :=
  ["done", "then", "fail", "catch", "always", "finally"]

namespace Request

/-- The method of the transfer in capitals, or the expression for it. -/
def methodText (request : Request) : String :=
  match request.method with
  | some place =>
      if place.kind == .string then Text.asciiUpper (Text.unquote place.text) else place.text
  | none => if request.kind == .post then "POST" else "GET"

/-- The address, or the expression for it. -/
def urlText (request : Request) : String :=
  match request.url with
  | some place => if place.kind == .string then Text.unquote place.text else place.text
  | none => ""

/-- The answer is plain text. -/
def expectsText (request : Request) : Bool :=
  match request.dataType with
  | some kind => ["html", "text", "script", "xml"].contains kind
  | none => false

/-! ## Settings -/

/-- The name and the value of a setting; a method is its own value. -/
def setting? (entry : Place) : Option (String × Place) :=
  match entry.kind with
  | .pair => do
      let key ← entry.child? .key
      let value ← entry.child? .value
      return (Text.unquote key.text, value)
  | .methodDefinition => (entry.child? .name).map fun name => (name.text, entry)
  | _ => none

/-- A request with one setting more. -/
def withSetting (request : Request) (key : String) (value : Place) : Request :=
  match key with
  | "url" => { request with url := some value }
  | "type" | "method" => { request with method := some value }
  | "data" => { request with data := some value }
  | "success" => { request with success := some value }
  | "error" => { request with error := some value }
  | "complete" => { request with complete := some value }
  | "dataType" => { request with dataType := some (Text.asciiLower (Text.unquote value.text)) }
  | _ => request

/-- A request described by an object of settings, with or without an address before it. -/
def configurable (arguments : List Place) : Request :=
  let (start, settings) :=
    match arguments with
    | [] => (none, none)
    | [settings] => (none, some settings)
    | url :: settings :: _ => (some url, some settings)
  let request : Request := { kind := .generic, url := start }
  match settings.filter (·.kind == .object) with
  | some object =>
      (object.namedChildren.filterMap setting?).foldl
        (fun request (key, value) => request.withSetting key value) request
  | none => request

/-! ## Short forms -/

/-- An argument that is called with the answer: a function, or the name of one. -/
def isCallback (facts : Facts) (argument : Place) : Bool :=
  argument.kind.isFunctionLike ||
    (argument.kind == .identifier && (facts.function? argument.text).isSome)

/-- A request with one argument more: data comes before the callback, a type behind it. -/
def withArgument (facts : Facts) (request : Request) (argument : Place) : Request :=
  if argument.kind == .string && request.success.isSome then
    { request with dataType := some (Text.asciiLower (Text.unquote argument.text)) }
  else if request.success.isNone && isCallback facts argument then
    { request with success := some argument }
  else if request.data.isNone && request.success.isNone then
    { request with data := some argument }
  else
    request

/-- A request in a short form: the address, then data, a callback and a type. -/
def short (facts : Facts) (kind : RequestKind) (arguments : List Place) : Request :=
  arguments.tail.foldl (withArgument facts) { kind := kind, url := arguments.head? }

/-! ## Continuations -/

/-- A request with one continuation more. -/
def withContinuation (request : Request) (method : String) (arguments : List Place) : Request :=
  let first := arguments.head?
  match method with
  | "done" => { request with success := first.or request.success }
  | "then" =>
      { request with
        success := first.or request.success, error := (arguments[1]?).or request.error }
  | "fail" | "catch" => { request with error := first.or request.error }
  | _ => { request with complete := first.or request.complete }

end Request

namespace Facts

/-- The request that a call makes, without continuations. -/
def rootRequest? (facts : Facts) (place : Place) : Option Request := do
  guard (place.kind == .callExpression)
  let function ← place.child? .function
  guard (function.kind == .memberExpression)
  let object ← function.child? .object
  guard (object.kind == .identifier && isSelectName object.text)
  let property ← function.child? .property
  let arguments := callArguments place
  match property.text with
  | "ajax" => some (Request.configurable arguments)
  | "get" => some (Request.short facts .get arguments)
  | "getJSON" => some { Request.short facts .get arguments with dataType := some "json" }
  | "post" => some (Request.short facts .post arguments)
  | _ => none

/-- The continuation that a call adds to its object. -/
def continuation? (place : Place) : Option (String × List Place × Place) := do
  guard (place.kind == .callExpression)
  let function ← place.child? .function
  guard (function.kind == .memberExpression)
  let property ← function.child? .property
  guard (continuationMethods.contains property.text)
  let object ← function.child? .object
  return (property.text, callArguments place, object)

/-- The request at a place with the continuations between it and the place. -/
def requestFrom? (facts : Facts) : Nat → Place → Option Request
  | 0, _ => none
  | fuel + 1, place =>
      match facts.rootRequest? place with
      | some request => some request
      | none => do
          let (method, arguments, object) ← continuation? place
          let request ← facts.requestFrom? fuel object
          return request.withContinuation method arguments

/-- The request that a place heads. -/
def request? (facts : Facts) (place : Place) : Option Request :=
  facts.requestFrom? place.node.size place

/-- Some request is made at or below a place. -/
def containsRequest (facts : Facts) (place : Place) : Bool :=
  place.walk.any fun inner => (facts.rootRequest? inner).isSome

end Facts

/-- A request that a continuation around it takes over. -/
def isContinued (place : Place) : Bool :=
  match place.parent? with
  | none => false
  | some member =>
      member.kind == .memberExpression && place.field == some .object &&
        ((member.child? .property).map fun property =>
          continuationMethods.contains property.text).getD false &&
        ((member.parent?).map (·.kind == .callExpression)).getD false

/-- The requests of a script that no continuation takes over. -/
def Facts.requests (facts : Facts) : List Request :=
  facts.root.walk.filterMap fun place =>
    if isContinued place then none else facts.request? place

end Hookify
