import Hookify.Component.Basic
import Hookify.Identifier.Fresh
import Hookify.Identifier.Scan
import Hookify.Text.Segments

namespace Hookify

/-!
# Components in the making

A draft collects what the passes over a script find.  It keeps the order of
discovery and sees to it that the identifiers of states, references, handlers
and functions are all different.  All of them are entered in one collection of
taken identifiers.  A state or a function whose name is taken is refused, while
a reference or a handler goes on to the next free name.

Dependencies are only determined by `finish`, since an effect may depend on a
state that is found after it.
-/

/-- An effect whose dependencies are not known yet. -/
structure PendingEffect where
  trigger : Trigger
  code : String
  description : String
  /-- The code in which the dependencies occur; without it there are none. -/
  reads : Option String
  /-- The selector of the element that a listener is attached to. -/
  owner : Option String
  deriving Repr, DecidableEq

/-- A component in the making. -/
structure Draft where
  name : String
  source : String
  /-- The identifiers in use, of whatever kind; their order is of no account. -/
  taken : List String := []
  states : List StateVariable := []
  references : List Reference := []
  handlers : List Handler := []
  effects : List PendingEffect := []
  functions : List NamedFunction := []
  /-- Functions that have become handlers. -/
  claimed : List String := []
  remoteCalls : List RemoteCall := []
  animations : List Animation := []
  mutations : List Mutation := []
  selectors : List String := []
  warnings : List String := []
  resources : List Resource := []
  styles : Option String := none

/-- The variable stands for whether the element of a selector is shown. -/
def StateVariable.shows (state : StateVariable) (selector : String) : Bool :=
  match state.purpose with
  | some purpose =>
      purpose.facet == .visibility &&
        Identifier.selectorKey purpose.selector == Identifier.selectorKey selector
  | none => false

/-- The reactive state that tells whether the element of a selector is shown. -/
def visibilityState? (states : List StateVariable) (selector : String) : Option String :=
  ((states.filter (·.isReactive)).find? (·.shows selector)).map (·.identifier)

namespace Draft

/-- An empty draft. -/
def new (name source : String) : Draft := { name := name, source := source }

/-! ## Identifiers -/

/-- An identifier is in use. -/
def isTaken (draft : Draft) (identifier : String) : Bool :=
  draft.taken.contains identifier

/-! ## States -/

/-- The state with an identifier. -/
def state? (draft : Draft) (identifier : String) : Option StateVariable :=
  draft.states.find? (·.identifier == identifier)

/-- A draft with one more state. -/
def withState (draft : Draft) (state : StateVariable) : Draft :=
  { draft with
    taken := state.identifier :: draft.taken
    states := draft.states ++ [state] }

/-- Add a state unless its identifier is in use; tells whether it was added. -/
def addState (draft : Draft) (state : StateVariable) : Draft × Bool :=
  if draft.isTaken state.identifier then (draft, false) else (draft.withState state, true)

/-! ## References -/

/-- The reference to the element of a selector. -/
def reference? (draft : Draft) (selector : String) : Option Reference :=
  let key := Identifier.selectorKey selector
  draft.references.find? fun reference => Identifier.selectorKey reference.selector == key

/-- There is a reference to the element of a selector. -/
def hasReference (draft : Draft) (selector : String) : Bool :=
  (draft.reference? selector).isSome

/-- A draft with one more reference. -/
def withReference (draft : Draft) (reference : Reference) : Draft :=
  { draft with
    taken := reference.identifier :: draft.taken
    references := draft.references ++ [reference] }

/-- The identifier of the reference to the element of a selector. If there is none yet, it is
added under the wanted identifier, or the next free one. -/
def ensureReferenceNamed (draft : Draft) (selector wanted : String) : Draft × String :=
  match draft.reference? selector with
  | some reference => (draft, reference.identifier)
  | none =>
      let identifier := Identifier.fresh draft.taken wanted
      (draft.withReference ⟨identifier, selector⟩, identifier)

/-- The identifier of the reference to the element of a selector, named after the selector. -/
def ensureReference (draft : Draft) (selector : String) : Draft × String :=
  draft.ensureReferenceNamed selector (Identifier.reference selector)

/-! ## Handlers and effects -/

/-- What the effect of a handler does. -/
def describe (handler : Handler) : String :=
  match handler.parent with
  | some parent =>
      "Delegate " ++ handler.event ++ " events from " ++ parent ++ " to " ++ handler.selector
  | none => "Attach " ++ handler.event ++ " listener to " ++ handler.selector

/-- The selector of the element that listens; page objects are no elements. -/
def listenerOwner? (handler : Handler) : Option String :=
  match handler.target with
  | .reference _ => some (handler.parent.getD handler.selector)
  | .page _ => none

/-- Add a handler together with the effect that attaches it.  If the name is in use, the handler
gets the next free one, also within the code of the effect. -/
def addHandler (draft : Draft) (handler : Handler) (code : String) : Draft × String :=
  let name := Identifier.fresh draft.taken handler.name
  let renamed := if name == handler.name then code else Text.replace handler.name name code
  let effect : PendingEffect :=
    { trigger := .event handler.event
      code := renamed
      description := describe handler
      reads := some handler.body
      owner := listenerOwner? handler }
  ({ draft with
      taken := name :: draft.taken
      handlers := draft.handlers ++ [{ handler with name := name }]
      effects := draft.effects ++ [effect] }, name)

/-- Add code that runs once, when the component is mounted. -/
def addMountEffect (draft : Draft) (code description : String) : Draft :=
  { draft with effects := draft.effects ++ [⟨.mount, code, description, none, none⟩] }

/-- Add code that loads remote data. -/
def addFetchEffect (draft : Draft) (code description : String) : Draft :=
  { draft with effects := draft.effects ++ [⟨.fetch, code, description, some code, none⟩] }

/-! ## Functions -/

/-- A draft with one more function. -/
def withFunction (draft : Draft) (function : NamedFunction) : Draft :=
  { draft with
    taken := function.name :: draft.taken
    functions := draft.functions ++ [function] }

/-- Add a function unless its name is in use; tells whether it was added. -/
def addFunction (draft : Draft) (function : NamedFunction) : Draft × Bool :=
  if draft.isTaken function.name then (draft, false) else (draft.withFunction function, true)

/-- Note that a function has become a handler. -/
def claim (draft : Draft) (name : String) : Draft :=
  { draft with claimed := draft.claimed ++ [name] }

/-- A function has become a handler. -/
def isClaimed (draft : Draft) (name : String) : Bool :=
  draft.claimed.contains name

/-! ## Records -/

/-- Record a request. -/
def addRemoteCall (draft : Draft) (call : RemoteCall) : Draft :=
  { draft with remoteCalls := draft.remoteCalls ++ [call] }

/-- Record an animation. -/
def addAnimation (draft : Draft) (animation : Animation) : Draft :=
  { draft with animations := draft.animations ++ [animation] }

/-- Record a change of an element. -/
def addMutation (draft : Draft) (mutation : Mutation) : Draft :=
  { draft with mutations := draft.mutations ++ [mutation] }

/-- Record a selector, once. -/
def addSelector (draft : Draft) (selector : String) : Draft :=
  if draft.selectors.contains selector then draft
  else { draft with selectors := draft.selectors ++ [selector] }

/-- Record a warning, once. -/
def addWarning (draft : Draft) (warning : String) : Draft :=
  if draft.warnings.contains warning then draft
  else { draft with warnings := draft.warnings ++ [warning] }

/-- Set the files that the page loads. -/
def setResources (draft : Draft) (resources : List Resource) : Draft :=
  { draft with resources := resources }

/-- Set the styles of the page; blank ones are none. -/
def setStyles (draft : Draft) (styles : Option String) : Draft :=
  { draft with styles := styles.filter (! Text.isBlankText ·) }

/-! ## The finished component -/

/-- The dependencies of an effect.  A listener also depends on whether its element is shown, since
an element that is shown anew has to be listened to anew. -/
def resolve (states : List StateVariable) (effect : PendingEffect) : Effect :=
  let reactive := (states.filter (·.isReactive)).map (·.identifier)
  let read :=
    match effect.reads with
    | some code => Identifier.dependencies code reactive
    | none => []
  let shown := (effect.owner.bind (visibilityState? states)).toList.filter (! read.contains ·)
  { trigger := effect.trigger
    code := effect.code
    dependencies := read ++ shown
    description := effect.description }

/-- What the component needs from its framework. -/
def capabilities (draft : Draft) : List Capability :=
  (if draft.states.any (·.isReactive) then [.statefulValue] else []) ++
    (if draft.effects.isEmpty then [] else [.sideEffect]) ++
    (if draft.references.isEmpty then [] else [.stableReference])

/-- The finished component. -/
def finish (draft : Draft) : Component where
  name := draft.name
  source := draft.source
  capabilities := draft.capabilities
  states := draft.states
  references := draft.references
  handlers := draft.handlers
  effects := draft.effects.map (resolve draft.states)
  functions := draft.functions
  remoteCalls := draft.remoteCalls
  animations := draft.animations
  mutations := draft.mutations
  selectors := draft.selectors
  warnings := draft.warnings
  resources := draft.resources
  styles := draft.styles

end Draft
end Hookify
