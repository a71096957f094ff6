import Hookify.Request.Basic
import Hookify.Renderer.Basic

namespace Hookify

open Script

/-!
# Requests as fetch chains

A request becomes a call of `fetch` with a chain of continuations: one that
checks the answer and takes its content, then the callbacks of the request.  A
request without a callback for failures writes them to the console.
-/

namespace Renderer

/-- A callback as the argument of a continuation.  A function becomes an arrow function with at
most one parameter; without a usual parameter it has none. -/
def callback (renderer : Renderer) (usualParameter : Option String) (place : Place) : String :=
  if ! place.kind.isFunctionLike && place.kind != .methodDefinition then
    renderer.fragment place
  else
    let parameter :=
      match usualParameter with
      | none => ""
      | some usual => (firstParameter? (parametersText place)).getD usual
    let body := renderer.functionBody place
    if body.isEmpty then
      "(" ++ parameter ++ ") => \x7b\x7d"
    else
      "(" ++ parameter ++ ") => \x7b\n" ++ Text.indent "  " body ++ "\n\x7d"

/-- A callback as a continuation of its own. -/
def continuation (renderer : Renderer) (method : String) (usualParameter : Option String)
    (place : Place) : String :=
  "\n  ." ++ method ++ "(" ++
    Text.indentContinuation "  " (renderer.callback usualParameter place) ++ ")"

/-- The static text of a template with the given content. -/
def escapeTemplate (text : String) : String :=
  Text.replace "$\x7b" "\\$\x7b" (Text.replace "`" "\\`" text)

/-- An address with data as its query. -/
def queryUrl (address : Option Place) (rendered data : String) : String :=
  let query := "?$\x7bnew URLSearchParams(" ++ data ++ ")\x7d`"
  if (address.map (·.kind == .string)).getD false then
    "`" ++ escapeTemplate (Text.unquote rendered) ++ query
  else
    "`$\x7b" ++ rendered ++ "\x7d" ++ query

/-- The options of a call of `fetch` that does not only get something. -/
def fetchOptions (request : Request) (data : Option String) : String :=
  let isLiteral := (request.method.map (·.kind == .string)).getD true
  let method := if isLiteral then "'" ++ request.methodText ++ "'" else request.methodText
  let transfer :=
    match data with
    | some text =>
        [ "headers: \x7b 'Content-Type': 'application/json' \x7d",
          "body: JSON.stringify(" ++ Text.indentContinuation "  " text ++ ")" ]
    | none => []
  let options := (("method: " ++ method) :: transfer).map fun option => "  " ++ option ++ ","
  "\x7b\n" ++ String.intercalate "\n" options ++ "\n\x7d"

/-- The call of `fetch`. -/
def fetchCall (renderer : Renderer) (request : Request) : String :=
  let url := (request.url.map renderer.fragment).getD "''"
  let data := request.data.map renderer.fragment
  if request.methodText == "GET" then
    match data with
    | some text => "fetch(" ++ queryUrl request.url url text ++ ")"
    | none => "fetch(" ++ url ++ ")"
  else
    "fetch(" ++ url ++ ", " ++ fetchOptions request data ++ ")"

/-- The continuation that checks an answer and takes its content. -/
def checkAnswer (request : Request) : String :=
  let content := if request.expectsText then "response.text()" else "response.json()"
  "\n  .then((response) => \x7b\n    if (!response.ok) \x7b\n" ++
    "      throw new Error(`Request failed with status $\x7bresponse.status\x7d`);\n    \x7d\n" ++
    "    return " ++ content ++ ";\n  \x7d)"

/-- A request as a chain on a call of `fetch`. -/
def fetch (renderer : Renderer) (request : Request) : String :=
  let success := (request.success.map (renderer.continuation "then" (some "data"))).getD ""
  let failure :=
    (request.error.map (renderer.continuation "catch" (some "error"))).getD
      "\n  .catch((error) => \x7b\n    console.error(error);\n  \x7d)"
  let complete := (request.complete.map (renderer.continuation "finally" none)).getD ""
  renderer.fetchCall request ++ checkAnswer request ++ success ++ failure ++ complete

end Renderer
end Hookify
