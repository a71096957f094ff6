import Hookify.Script.Cursor

namespace Hookify
namespace Script

/-!
# The parts of the grammar

The rules for expressions, functions, markup and statements call each other.
Each rule is written for a given `Grammar`, which supplies the readers of the
parts below; `grammarOf` in the module on statements ties them together, one
level of nesting at a time.
-/

/-- Readers for the parts of a part. -/
structure Grammar where
  /-- How many items a list may have: the length of the script is enough. -/
  budget : Nat
  /-- Expressions separated by commas. -/
  expression : Reader Sketch
  /-- One expression without commas outside of brackets. -/
  assignment : Reader Sketch
  /-- An operand with the operators before it. -/
  unary : Reader Sketch
  /-- Operators between operands from a certain strength on. -/
  binary : Nat → Reader Sketch
  /-- An element of markup, without the lexeme behind it. -/
  element : Reader Sketch
  statement : Reader Sketch
  /-- The statements up to a closing brace or the end of the script. -/
  statements : Reader (List Sketch)

/-- The grammar that recognises nothing. -/
def Grammar.empty (budget : Nat) : Grammar where
  budget := budget
  expression := Reader.fail
  assignment := Reader.fail
  unary := Reader.fail
  binary := fun _ => Reader.fail
  element := Reader.fail
  statement := Reader.fail
  statements := Reader.fail

namespace Grammar

open Reader

/-! ## Lists -/

/-- Items between commas up to a closing sign; places without an item are passed over. -/
def commaItems (grammar : Grammar) (closing : String) (item : Reader Sketch) :
    Reader (List Sketch) := do
  let items ← many (do
    let cursor ← get
    if cursor.isSign closing then
      return none
    else if cursor.isSign "," then
      advance
      return some []
    else
      let first ← item
      unless (← atSign closing) do
        sign ","
      return some [first]) grammar.budget
  sign closing
  return items.flatten

/-! ## Templates -/

/-- A substitution of a template, from behind its opening. -/
def substitution (grammar : Grammar) : Reader Sketch := do
  let start := (← get).last
  modify (·.take 2)
  resume
  let inner ← withIn true grammar.expression
  unless (← atSign "\x7d") do
    fail
  modify (·.takeHere 1)
  finish .templateSubstitution start [inner]

/-- A template, from its opening quote on. -/
def template (grammar : Grammar) : Reader Sketch := do
  let start := (← get).start
  modify (·.takeHere 1)
  let pieces ← many (do
    match (← get).behind with
    | [] => fail
    | '\x60' :: _ => return none
    | '$' :: '\x7b' :: _ => return some (← substitution grammar)
    | '\\' :: rest => return some (← leafRaw .escapeSequence (escapeLength ('\\' :: rest)))
    | behind => return some (← leafRaw .stringFragment (max 1 (templateTextLength behind))))
    grammar.budget
  modify (·.take 1)
  let node ← finish .templateString start pieces
  resume
  return node

/-! ## Blocks and functions -/

/-- The brace at the end of a block. If nothing has to follow the block, one brace that is missing
at the end of the script is taken as given. -/
def closingBrace (mayLack : Bool) : Reader Unit := do
  let cursor ← get
  if mayLack && cursor.lexeme == .finish && ! cursor.lacksBrace then
    set { cursor with lacksBrace := true }
  else
    sign "\x7d"

/-- A block. Behind the function of an expression it may end at an automatic semicolon as after
an expression. -/
def block (grammar : Grammar) (afterExpression : Bool) : Reader Sketch := do
  let start := (← get).start
  sign "\x7b"
  let body ← withIn true grammar.statements
  closingBrace (! afterExpression)
  let _ ← automaticSemicolon afterExpression
  finish .statementBlock start body

/-- Something that may be assigned to: a name, an array or an object with names. -/
def target (grammar : Grammar) : Reader Sketch := do
  let cursor ← get
  if cursor.isSign "[" || cursor.isSign "\x7b" then
    return (← grammar.unary).toPattern
  else
    name

/-- A target with a default value, if it has one. -/
def targetWithDefault (grammar : Grammar) : Reader Sketch := do
  let left ← target grammar
  if ← optionalSign "=" then
    let right ← grammar.assignment
    finish .assignmentPattern left.start [left.as .left, right.as .right]
  else
    return left

/-- A parameter: a target, or the target of all that is left. -/
def parameter (grammar : Grammar) : Reader Sketch := do
  let start := (← get).start
  if ← optionalSign "..." then
    let rest ← target grammar
    finish .restPattern start [rest]
  else
    targetWithDefault grammar

/-- A list of parameters with its parentheses. -/
def parameters (grammar : Grammar) : Reader Sketch := do
  let start := (← get).start
  sign "("
  let items ← withIn true (commaItems grammar ")" (parameter grammar))
  finish .formalParameters start items

/-- A function with the word `function`, from that word or the word `async` on. -/
def function (grammar : Grammar) (isDeclaration : Bool) : Reader Sketch := do
  let start := (← get).start
  let async ← if ← atWord "async" then pure [← leaf .asyncKeyword] else pure []
  word "function"
  let isGenerator ← optionalSign "*"
  let names ← if ← atSign "(" then pure [] else pure [(← name).as .name]
  if isDeclaration && names.isEmpty then
    fail
  let inputs ← parameters grammar
  let body ← block grammar (! isDeclaration)
  if isDeclaration then
    let _ ← automaticSemicolon false
  let kind :=
    if isDeclaration then
      if isGenerator then Kind.generatorFunctionDeclaration else .functionDeclaration
    else if isGenerator then .generatorFunction
    else .functionExpression
  finish kind start (async ++ names ++ [inputs.as .parameters, body.as .body])

/-- The arrow and the body of an arrow function whose parameters have been read. -/
def arrow (grammar : Grammar) (start : Nat) (before : List Sketch) : Reader Sketch := do
  sign "=>"
  let body ← if ← atSign "\x7b" then block grammar true else grammar.assignment
  finish .arrowFunction start (before ++ [body.as .body])

end Grammar

end Script
end Hookify
