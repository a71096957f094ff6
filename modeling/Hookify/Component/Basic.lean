import Hookify.Component.Facet
import Hookify.Files.Path
import Hookify.Identifier.Derived

namespace Hookify

/-!
# Components

What is known about a script once it has been taken apart: its state, the
elements it refers to, its event handlers, effects, functions and requests,
and what could not be carried over.  A `Component` is finished; while it is
being assembled it is a `Draft`.
-/

/-- The two objects of a page that are no elements of it. -/
inductive PageObject where
  | document
  | window
  deriving Repr, DecidableEq

/-- The name of a page object in a script. -/
def PageObject.name : PageObject → String
  | .document => "document"
  | .window => "window"

/-- Whether a variable of the component may change. -/
inductive StateKind where
  | reactive
  | constant
  deriving Repr, DecidableEq

/-- What a state variable stands for: a facet of the element of a selector. -/
structure Purpose where
  selector : String
  facet : Facet
  deriving Repr, DecidableEq

/-- A variable of the component with its first value as code. -/
structure StateVariable where
  identifier : String
  initial : String
  kind : StateKind
  purpose : Option Purpose
  deriving Repr, DecidableEq

namespace StateVariable

/-- The variable can change. -/
def isReactive (state : StateVariable) : Bool :=
  state.kind == .reactive

/-- The function that changes the variable. -/
def setter (state : StateVariable) : String :=
  Identifier.setter state.identifier

end StateVariable

/-- A reference to the element of a selector. -/
structure Reference where
  identifier : String
  selector : String
  deriving Repr, DecidableEq

/-- What a listener is attached to. -/
inductive ListenerTarget where
  | reference (identifier : String)
  | page (object : PageObject)
  deriving Repr, DecidableEq

/-- A function that handles an event. -/
structure Handler where
  /-- The element whose events are handled; for a delegated event it is the child. -/
  selector : String
  event : String
  name : String
  parameters : String
  body : String
  /-- The element that listens, if it is not the one whose events are handled. -/
  parent : Option String
  target : ListenerTarget
  once : Bool
  deriving Repr, DecidableEq

/-- What makes an effect run. -/
inductive Trigger where
  | mount
  | event (name : String)
  | fetch
  deriving Repr, DecidableEq

/-- Code that runs beside rendering, with the state variables that make it run again. -/
structure Effect where
  trigger : Trigger
  code : String
  dependencies : List String
  description : String
  deriving Repr, DecidableEq

/-- A named function of the script. -/
structure NamedFunction where
  name : String
  parameters : String
  body : String
  isAsync : Bool
  deriving Repr, DecidableEq

/-- The forms in which a request can be written. -/
inductive RequestKind where
  | generic
  | get
  | post
  deriving Repr, DecidableEq

/-- A request for remote data. -/
structure RemoteCall where
  kind : RequestKind
  url : String
  method : String
  body : Option String
  success : Option String
  error : Option String
  code : String
  deriving Repr, DecidableEq

/-- A visual effect, with advice on what to put in its place. -/
structure Animation where
  selector : String
  method : String
  arguments : String
  suggestion : String
  deriving Repr, DecidableEq

/-- An animation as the report names it. -/
def Animation.label (animation : Animation) : String :=
  animation.selector ++ "." ++ animation.method ++ "(" ++ animation.arguments ++ ")"

/-- A place at which the script changes an element. -/
structure Mutation where
  selector : String
  method : String
  facet : Facet
  deriving Repr, DecidableEq

/-- The kinds of files that a page loads. -/
inductive ResourceKind where
  | stylesheet
  | script
  deriving Repr, DecidableEq

/-- A file that a page loads: as the page writes it, and where it is. -/
structure Resource where
  reference : String
  path : Path
  kind : ResourceKind
  deriving Repr, DecidableEq

/-- What a component needs from its framework. -/
inductive Capability where
  | statefulValue
  | sideEffect
  | stableReference
  deriving Repr, DecidableEq

/-- The function of the framework that provides a capability. -/
def Capability.hook : Capability → String
  | .statefulValue => "useState"
  | .sideEffect => "useEffect"
  | .stableReference => "useRef"

/-- How much of what was found in a script. -/
structure Stats where
  selectors : Nat := 0
  handlers : Nat := 0
  mutations : Nat := 0
  remoteCalls : Nat := 0
  animations : Nat := 0
  styleMutations : Nat := 0
  deriving Repr, DecidableEq, Inhabited

/-- The counts of two scripts together. -/
def Stats.add (first second : Stats) : Stats where
  selectors := first.selectors + second.selectors
  handlers := first.handlers + second.handlers
  mutations := first.mutations + second.mutations
  remoteCalls := first.remoteCalls + second.remoteCalls
  animations := first.animations + second.animations
  styleMutations := first.styleMutations + second.styleMutations

/-- All that is known about a component. -/
structure Component where
  name : String
  source : String
  capabilities : List Capability
  states : List StateVariable
  references : List Reference
  handlers : List Handler
  effects : List Effect
  functions : List NamedFunction
  remoteCalls : List RemoteCall
  animations : List Animation
  mutations : List Mutation
  selectors : List String
  warnings : List String
  resources : List Resource
  styles : Option String
  deriving Repr, DecidableEq

namespace Component

/-- The variables that can change. -/
def reactiveStates (component : Component) : List StateVariable :=
  component.states.filter (·.isReactive)

/-- The variables that cannot change. -/
def constants (component : Component) : List StateVariable :=
  component.states.filter (! ·.isReactive)

/-- The component needs a capability. -/
def needs (component : Component) (capability : Capability) : Bool :=
  component.capabilities.contains capability

/-- The variables that stand for facets of the element of a reference. -/
def statesOf (component : Component) (reference : Reference) : List StateVariable :=
  let key := Identifier.selectorKey reference.selector
  component.states.filter fun state =>
    match state.purpose with
    | some purpose => Identifier.selectorKey purpose.selector == key
    | none => false

/-- How much of what was found. Changes of style are counted apart from the others. -/
def stats (component : Component) : Stats :=
  let styles := (component.mutations.filter (·.facet == .style)).length
  { selectors := component.selectors.length
    handlers := component.handlers.length
    mutations := component.mutations.length - styles
    remoteCalls := component.remoteCalls.length
    animations := component.animations.length
    styleMutations := styles }

end Component
end Hookify
