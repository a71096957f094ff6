import Hookify.Component.Draft
import Hookify.Renderer.Replace

namespace Hookify
namespace Pass

open Script Selection

/-!
# Records

Passes that go through the whole script, whatever scope a node is in: requests,
animations, changes of elements, and selectors.  They record what the report
counts, and add the states and references that the generated code needs.
-/

/-! ## Requests -/

/-- The record of a request. -/
def remoteCall (renderer : Renderer) (request : Request) : RemoteCall where
  kind := request.kind
  url := request.urlText
  method := request.methodText
  body := request.data.map (·.text)
  success := request.success.map (·.text)
  error := request.error.map (·.text)
  code := renderer.fetch request

/-- Record the requests that no continuation takes over. -/
def requests (facts : Facts) (draft : Draft) : Draft :=
  let renderer := Renderer.of facts none
  (facts.requests.map (remoteCall renderer)).foldl Draft.addRemoteCall draft

/-! ## Animations -/

/-- Record the animations of each chain. -/
def animations (facts : Facts) (draft : Draft) : Draft :=
  (chainsIn facts.aliases facts.root).foldl (fun draft (_, chain) =>
    (chain.effective.filter (·.role == .animation)).foldl (fun draft call =>
      draft.addAnimation (Animation.ofCall chain.target call)) draft) draft

/-! ## Functions -/

/-- A function has the word `async` before it. -/
def isDeclaredAsync (function : Place) : Bool :=
  function.node.children.any (·.kind == .asyncKeyword)

/-- A named function as part of a component. Requests are awaited, so a function with one is
asynchronous. -/
def namedFunction (facts : Facts) (renderer : Renderer) (name : String) (function : Place) :
    NamedFunction where
  name := name
  parameters := parametersText function
  body := renderer.functionBody function
  isAsync :=
    isDeclaredAsync function || facts.containsRequest ((function.child? .body).getD function)

/-- Add the functions that scopes define and that have not become handlers. -/
def functions (facts : Facts) (draft : Draft) : Draft :=
  let renderer := Renderer.of facts none
  (facts.statements.flatMap definedFunctions).foldl (fun draft (name, function) =>
    if draft.isClaimed name then draft
    else (draft.addFunction (namedFunction facts renderer name function)).1) draft

/-! ## Changes of elements -/

/-- The first value of a state: an element that is first shown starts hidden. -/
def firstValue (facet : Facet) (method : String) : String :=
  match facet, method with
  | .visibility, "show" => "false"
  | _, _ => facet.initial

/-- Add the state that owns a facet of an element, unless there is one. -/
def addOwningState (selector method : String) (facet : Facet) (draft : Draft) : Draft :=
  let name := Identifier.state selector facet
  if (draft.state? name).isSome then draft
  else (draft.addState ⟨name, firstValue facet method, .reactive, some ⟨selector, facet⟩⟩).1

/-- Record what one call of a chain does. -/
def recordCall (facts : Facts) (head : Place) (target : Target) (draft : Draft)
    (call : MethodCall) : Draft :=
  let shown := target.label ++ "." ++ call.name ++ "()"
  match call.role with
  | .mutation facet =>
      let recorded := draft.addMutation ⟨target.label, call.name, facet⟩
      match target with
      | .selector selector => addOwningState selector call.name facet recorded
      | _ => recorded
  | .traversal =>
      draft.addWarning (shown ++
        " walks the DOM from a selection; the rest of that chain is kept as direct DOM code")
  | .unknown =>
      draft.addWarning (shown ++ " has no React equivalent and is kept as a call on the element")
  | .binding =>
      if facts.isScopeExpression head then draft
      else
        draft.addWarning (shown ++
          " binds an event inside nested code; move it into an effect by hand")
  | _ => draft

/-- The calls of a chain up to the first that leads to other elements, which is included. -/
def callsToTraversal : List MethodCall → List MethodCall
  | [] => []
  | call :: rest => if call.role == .traversal then [call] else call :: callsToTraversal rest

/-- Record the changes that chains make, and warn of calls that are kept. -/
def mutations (facts : Facts) (draft : Draft) : Draft :=
  (chainsIn facts.aliases facts.root).foldl (fun draft (head, chain) =>
    (callsToTraversal chain.calls).foldl (recordCall facts head chain.target) draft) draft

/-! ## Selectors -/

/-- The selectors of a script, wherever they stand. -/
def selectorsOf (facts : Facts) : List String :=
  facts.root.walk.filterMap fun place =>
    match directTarget? place with
    | some (.selector selector) => some selector
    | _ => none

/-- Record all selectors and give each a reference. -/
def references (facts : Facts) (draft : Draft) : Draft :=
  (selectorsOf facts).foldl (fun draft selector =>
    ((draft.addSelector selector).ensureReferenceNamed selector
      (facts.referenceName selector)).1) draft

end Pass
end Hookify
