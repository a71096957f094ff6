import Hookify.Facts.Scope
import Hookify.Identifier.Fresh
import Hookify.Selection.Chain

namespace Hookify

open Script Selection

/-!
# Facts about a script

What the passes have to know about the whole script is gathered once: its
scopes, what their declarations bind, which variables are assigned to, and
which facets of which elements some call writes.  Later definitions replace
earlier ones of the same name.
-/

/-- What is known about a script before any of it is converted. -/
structure Facts where
  root : Place
  scopes : List Scope
  /-- Variables that stand for a selection. -/
  aliases : Aliases
  /-- Functions that a scope defines. -/
  functions : List (String × Place)
  /-- Other variables that a scope declares. -/
  declared : List String
  /-- Variables that are assigned to somewhere. -/
  reassigned : List String
  /-- Variables that occur in what is written to an element. -/
  written : List String
  /-- Names of the states that some call writes. -/
  mutated : List String
  /-- Names that the script uses. -/
  names : List String

/-! ## Declarations -/

/-- What a declaration binds a name to. -/
inductive Bound where
  | function (place : Place)
  | selection (selector : String)
  | variable

/-- What a variable with an initial value is bound to. -/
def boundTo (value : Option Place) : Bound :=
  match value with
  | none => .variable
  | some place =>
      if place.kind.isFunctionLike then .function place
      else
        match directTarget? place with
        | some (.selector selector) => .selection selector
        | _ => .variable

/-- The names that a statement binds. -/
def bindings (statement : Place) : List (String × Bound) :=
  if statement.kind.isFunctionDeclaration then
    match statement.child? .name with
    | some name => [(name.text, .function statement)]
    | none => []
  else if statement.kind.isVariables then
    (declarators statement).map fun (name, value) => (name, boundTo value)
  else
    []

/-! ## Uses -/

/-- The variable that a node assigns to. -/
def assignedName? (place : Place) : Option String :=
  let target :=
    match place.kind with
    | .assignmentExpression | .augmentedAssignmentExpression => place.child? .left
    | .updateExpression => place.child? .argument
    | _ => none
  (target.filter (·.kind == .identifier)).map (·.text)

/-- The name that a node uses. -/
def usedName? (place : Place) : Option String :=
  match place.kind with
  | .identifier | .shorthandPropertyIdentifier => some place.text
  | _ => none

/-- The variables below a place. -/
def identifiersIn (place : Place) : List String :=
  (place.walk.filter (·.kind == .identifier)).map (·.text)

/-- The variables in what the calls of a chain write. -/
def writtenBy (chain : Chain) : List String :=
  chain.effective.flatMap fun call =>
    match call.role with
    | .mutation _ | .attributeWrite => call.arguments.flatMap identifiersIn
    | _ => []

/-- The states that the calls of a chain write. -/
def mutatedBy (chain : Chain) : List String :=
  chain.effective.filterMap fun call =>
    match call.role, chain.target with
    | .mutation facet, .selector selector => some (Identifier.state selector facet)
    | _, _ => none

namespace Facts

/-- The facts about a script. -/
def ofTree (tree : Node) : Facts :=
  let root := Place.ofRoot tree
  let scopes := scopesOf tree
  let bound := (scopes.flatMap fun scope => statementsOf scope.body).flatMap bindings
  let aliases : Aliases := bound.filterMap fun (name, value) =>
    match value with
    | .selection selector => some (name, selector)
    | _ => none
  let places := root.walk
  let chains := (chainsIn aliases root).map (·.2)
  { root := root
    scopes := scopes
    aliases := aliases
    functions := bound.filterMap fun (name, value) =>
      match value with
      | .function place => some (name, place)
      | _ => none
    declared := bound.filterMap fun (name, value) =>
      match value with
      | .variable => some name
      | _ => none
    reassigned := places.filterMap assignedName?
    written := chains.flatMap writtenBy
    mutated := chains.flatMap mutatedBy
    names := (places.filterMap usedName?).eraseDups }

/-- The statements of all scopes, scope by scope. -/
def statements (facts : Facts) : List Place :=
  facts.scopes.flatMap fun scope => statementsOf scope.body

/-- A place is the expression of a statement of a scope. -/
def isScopeExpression (facts : Facts) (place : Place) : Bool :=
  match place.parent? with
  | none => false
  | some statement =>
      statement.kind == .expressionStatement &&
        match statement.parent? with
        | none => false
        | some body => facts.scopes.any (·.body.path == body.path)

/-- The chain that ends at a place. -/
def chain? (facts : Facts) (place : Place) : Option Chain :=
  Chain.at? facts.aliases place

/-- The selector that a variable stands for. -/
def alias? (facts : Facts) (name : String) : Option String :=
  facts.aliases.find? name

/-- The function that a scope defines under a name. -/
def function? (facts : Facts) (name : String) : Option Place :=
  (facts.functions.reverse.find? (·.1 == name)).map (·.2)

/-- A variable can change if the script assigns to it or writes it to an element, unless its name
marks it as a constant. -/
def classify (facts : Facts) (name : String) : StateKind :=
  if Identifier.isConstantName name then .constant
  else if facts.reassigned.contains name || facts.written.contains name then .reactive
  else .constant

/-- A declared variable that becomes a state. -/
def isReactiveVariable (facts : Facts) (name : String) : Bool :=
  facts.declared.contains name && facts.classify name == .reactive

/-- Some call writes the state with this name. -/
def isMutated (facts : Facts) (name : String) : Bool :=
  facts.mutated.contains name

/-- The reference to the element of a selector: the derived name, or the next one that the script
does not use. -/
def referenceName (facts : Facts) (selector : String) : String :=
  Identifier.fresh facts.names (Identifier.reference selector)

end Facts
end Hookify
