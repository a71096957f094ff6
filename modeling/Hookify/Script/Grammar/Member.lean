import Hookify.Script.Grammar.Basic

namespace Hookify
namespace Script
namespace Grammar

open Reader

/-!
# Objects and classes

The members of object literals and class bodies.  The words `get`, `set`,
`async` and `static` are modifiers only if a name follows.
-/

/-- A key that is computed from an expression. -/
def computedKey (grammar : Grammar) : Reader Sketch := do
  let start := (← get).start
  sign "["
  let inner ← withIn true grammar.expression
  sign "]"
  finish .computedPropertyName start [inner]

/-- The name of a member. -/
def memberKey (grammar : Grammar) : Reader Sketch := do
  let cursor ← get
  match cursor.lexeme with
  | .word _ => leaf .propertyIdentifier
  | .string => leaf .string
  | .number => leaf .number
  | .privateName => leaf .privatePropertyIdentifier
  | _ => computedKey grammar

/-- The lexeme is a word that stands before the name of a member, and not the name itself. -/
def isModifier (text : String) : Reader Bool := do
  if ← atWord text then
    let next ← following
    match next.lexeme with
    | .word _ | .string | .number | .privateName => return true
    | _ => return next.isSign "[" || next.isSign "*" || next.isSign "\x7b"
  else
    return false

/-- The words before the name of a method: `async` is a node, the others only tokens. -/
def modifiers : Reader (List Sketch) := do
  let async ← if ← isModifier "async" then pure [← leaf .asyncKeyword] else pure []
  if (← isModifier "get") || (← isModifier "set") then
    advance
  let _ ← optionalSign "*"
  return async

/-- The parameters and the body of a method whose name has been read. -/
def method (grammar : Grammar) (start : Nat) (before : List Sketch) (key : Sketch) :
    Reader Sketch := do
  let inputs ← parameters grammar
  let body ← block grammar false
  finish .methodDefinition start
    (before ++ [key.as .name, inputs.as .parameters, body.as .body])

/-- The member of an object literal whose key is a plain word without a value. -/
def shorthand (grammar : Grammar) (key : Sketch) : Reader Sketch := do
  if ← optionalSign "=" then
    let right ← grammar.assignment
    let left : Sketch := { key with kind := .shorthandPropertyIdentifierPattern }
    finish .objectAssignmentPattern key.start [left.as .left, right.as .right]
  else
    return { key with kind := .shorthandPropertyIdentifier }

/-- A member of an object literal. -/
def objectMember (grammar : Grammar) : Reader Sketch := do
  let start := (← get).start
  if ← optionalSign "..." then
    let inner ← grammar.assignment
    finish .spreadElement start [inner]
  else
    let before ← modifiers
    let key ← memberKey grammar
    if ← atSign "(" then
      method grammar start before key
    else if ← optionalSign ":" then
      let value ← grammar.assignment
      finish .pair start [key.as .key, value.as .value]
    else
      shorthand grammar key

/-- An object literal. -/
def object (grammar : Grammar) : Reader Sketch := do
  let start := (← get).start
  sign "\x7b"
  let members ← withIn true (commaItems grammar "\x7d" (objectMember grammar))
  finish .object start members

/-- An element of a list of expressions: an expression, or all elements of one. -/
def listItem (grammar : Grammar) : Reader Sketch := do
  let start := (← get).start
  if ← optionalSign "..." then
    let inner ← grammar.assignment
    finish .spreadElement start [inner]
  else
    grammar.assignment

/-- An array literal. -/
def array (grammar : Grammar) : Reader Sketch := do
  let start := (← get).start
  sign "["
  let elements ← withIn true (commaItems grammar "]" (listItem grammar))
  finish .array start elements

/-- Decorators before a class or a member. -/
def decorators (grammar : Grammar) : Reader (List Sketch) :=
  many (do
    let start := (← get).start
    if ← optionalSign "@" then
      let inner ← grammar.unary
      return some ((← finish .decorator start [inner]).as .decorator)
    else
      return none) grammar.budget

/-- A member of a class; nothing for a lone semicolon. -/
def classMember (grammar : Grammar) : Reader (List Sketch) := do
  if ← optionalSign ";" then
    return []
  let start := (← get).start
  let marks ← decorators grammar
  let isStatic ← isModifier "static"
  if isStatic then
    advance
  if isStatic && (← atSign "\x7b") then
    let body ← block grammar false
    return [← finish .classStaticBlock start [body.as .body]]
  let before ← modifiers
  let key ← memberKey grammar
  if ← atSign "(" then
    return [← method grammar start (marks ++ before) key]
  let value ←
    if ← optionalSign "=" then pure [(← withIn true grammar.assignment).as .value] else pure []
  unless (← atSign "\x7d") do
    semicolon (! value.isEmpty)
  return [← finish .fieldDefinition start (marks ++ before ++ [key.as .property] ++ value)]

/-- The body of a class. -/
def classBody (grammar : Grammar) : Reader Sketch := do
  let start := (← get).start
  sign "\x7b"
  let members ← many (do
    if ← atSign "\x7d" then return none else return some (← classMember grammar)) grammar.budget
  sign "\x7d"
  finish .classBody start members.flatten

/-- A class, with its decorators if it has any. -/
def classOf (grammar : Grammar) (isDeclaration : Bool) : Reader Sketch := do
  let start := (← get).start
  let marks ← decorators grammar
  word "class"
  let names ← if (← get).isName then pure [(← name).as .name] else pure []
  let heritageStart := (← get).start
  let heritage ←
    if ← atWord "extends" then do
      advance
      let base ← grammar.unary
      pure [← finish .classHeritage heritageStart [base]]
    else
      pure []
  let body ← classBody grammar
  if isDeclaration then
    let _ ← automaticSemicolon false
  finish (if isDeclaration then .classDeclaration else .classExpression) start
    (marks ++ names ++ heritage ++ [body.as .body])

end Grammar
end Script
end Hookify
