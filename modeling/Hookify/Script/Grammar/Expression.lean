import Hookify.Script.Grammar.Markup
import Hookify.Script.Grammar.Member

namespace Hookify
namespace Script
namespace Grammar

open Reader

/-!
# Expressions

From operands to assignments.  Parentheses and the parameters of an arrow
function begin alike, so their content is read as expressions first and turned
into patterns once the arrow is seen.
-/

/-! ## Operands -/

/-- A parenthesised expression, or the arrow function whose parameters stand there. -/
def parenthesized (grammar : Grammar) : Reader Sketch := do
  let start := (← get).start
  sign "("
  let items ← withIn true (commaItems grammar ")" (listItem grammar))
  let listed ← finish .formalParameters start (items.map Sketch.toPattern)
  if ← atSign "=>" then
    arrow grammar start [listed.as .parameters]
  else
    match items with
    | [] => fail
    | [inner] => finish .parenthesizedExpression start [inner]
    | first :: others =>
        let stop := (others.getLast?.getD first).stop
        finish .parenthesizedExpression start
          [⟨.sequenceExpression, none, first.start, stop, items⟩]

/-- The arguments of a call. Before a semicolon a missing parenthesis is taken as given. -/
def arguments (grammar : Grammar) : Reader Sketch := do
  let start := (← get).start
  sign "("
  if ← atSign ";" then
    finish .arguments start []
  else
    let items ← withIn true (commaItems grammar ")" (listItem grammar))
    finish .arguments start items

/-- What begins with the word `async`: a function, an arrow function, or a name. -/
def asyncOperand (grammar : Grammar) : Reader Sketch := do
  let cursor ← get
  let next ← following
  if next.isWord "function" && ! next.newline then
    function grammar false
  else if next.isName && ! next.newline && next.advance.isSign "=>" then
    let async ← leaf .asyncKeyword
    let input ← name
    arrow grammar cursor.start [async, input.as .parameter]
  else if next.isSign "(" && ! next.newline then
    let async ← leaf .asyncKeyword
    let listed ← arguments grammar
    if ← atSign "=>" then
      let inputs := { listed with
        kind := .formalParameters, children := listed.children.map Sketch.toPattern }
      arrow grammar cursor.start [async, inputs.as .parameters]
    else
      let callee : Sketch := { async with kind := .identifier }
      finish .callExpression cursor.start [callee.as .function, listed.as .arguments]
  else
    name

/-- A name, or the arrow function with that name as its parameter. -/
def nameOperand (grammar : Grammar) : Reader Sketch := do
  let input ← name
  if ← atSign "=>" then
    arrow grammar input.start [{ input with kind := .identifier }.as .parameter]
  else
    return input

/-- The word `import` as the beginning of an operand. -/
def importOperand : Reader Sketch := do
  let start := (← get).start
  let callee ← leaf .importName
  if ← optionalSign "." then
    let property ← anyWord .propertyIdentifier
    finish .metaProperty start [callee, property]
  else
    return callee

/-- A regular expression. -/
def regex : Reader Sketch := do
  match regexLength? (← get).here with
  | some length => leafHere .regex length
  | none => fail

/-- An operand that begins with a sign. -/
def signOperand (grammar : Grammar) : Reader Sketch := do
  match (← get).here with
  | '(' :: _ => parenthesized grammar
  | '[' :: _ => array grammar
  | '\x7b' :: _ => object grammar
  | '\x60' :: _ => template grammar
  | '/' :: _ => regex
  | '@' :: _ => classOf grammar false
  | '<' :: _ =>
      let element ← markup grammar
      resume
      return element
  | _ => fail

/-- An operand that begins with a word, the word `new` aside. -/
def wordOperand (grammar : Grammar) : Reader Sketch := do
  let cursor ← get
  if cursor.isWord "function" then function grammar false
  else if cursor.isWord "async" then asyncOperand grammar
  else if cursor.isWord "class" then classOf grammar false
  else if cursor.isWord "this" then leaf .this
  else if cursor.isWord "super" then leaf .superName
  else if cursor.isWord "null" then leaf .nullLiteral
  else if cursor.isWord "true" then leaf .trueLiteral
  else if cursor.isWord "false" then leaf .falseLiteral
  else if cursor.isWord "import" then importOperand
  else nameOperand grammar

/-- An operand without the members and calls behind it. -/
def operand (grammar : Grammar) : Reader Sketch := do
  match (← get).lexeme with
  | .word _ => wordOperand grammar
  | .number => leaf .number
  | .string => leaf .string
  | .privateName => leaf .privatePropertyIdentifier
  | .sign _ => signOperand grammar
  | _ => fail

/-! ## Members and calls -/

/-- The name behind a dot. -/
def propertyName : Reader Sketch := do
  match (← get).lexeme with
  | .word _ => leaf .propertyIdentifier
  | .privateName => leaf .privatePropertyIdentifier
  | _ => fail

/-- An index in brackets behind an object. -/
def subscript (grammar : Grammar) (object : Sketch) (chain : List Sketch) : Reader Sketch := do
  sign "["
  let index ← withIn true grammar.expression
  sign "]"
  finish .subscriptExpression object.start ([object.as .object] ++ chain ++ [index.as .index])

/-- What may stand behind a question mark and a dot. -/
def optionalStep (grammar : Grammar) (object : Sketch) : Reader Sketch := do
  let chain ← leaf .optionalChain
  if ← atSign "(" then
    let inputs ← arguments grammar
    finish .callExpression object.start [object.as .function, chain, inputs.as .arguments]
  else if ← atSign "[" then
    subscript grammar object [chain]
  else
    let property ← propertyName
    finish .memberExpression object.start [object.as .object, chain, property.as .property]

/-- One member, index, call or template behind an operand, if there is one. -/
def step (grammar : Grammar) (calls : Bool) (object : Sketch) : Reader (Option Sketch) := do
  let cursor ← get
  if cursor.isSign "." then
    advance
    let property ← propertyName
    return some (← finish .memberExpression object.start
      [object.as .object, property.as .property])
  else if cursor.isSign "[" then
    return some (← subscript grammar object [])
  else if cursor.isSign "\x60" then
    let text ← template grammar
    return some (← finish .callExpression object.start [object.as .function, text.as .arguments])
  else if calls && cursor.isSign "?." then
    return some (← optionalStep grammar object)
  else if calls && cursor.isSign "(" then
    let inputs ← arguments grammar
    return some (← finish .callExpression object.start [object.as .function, inputs.as .arguments])
  else
    return none

/-- All members, indices and calls behind an operand. -/
def steps (grammar : Grammar) (calls : Bool) : Nat → Sketch → Reader Sketch
  | 0, object => return object
  | budget + 1, object => do
      match ← step grammar calls object with
      | none => return object
      | some next => steps grammar calls budget next

/-- The word `new` with what it creates; `budget` bounds how often the word is repeated. -/
def newOperand (grammar : Grammar) : Nat → Reader Sketch
  | 0 => fail
  | budget + 1 => do
      let start := (← get).start
      word "new"
      if ← optionalSign "." then
        let _ ← anyWord .propertyIdentifier
        finish .metaProperty start []
      else
        let callee ←
          if ← atWord "new" then newOperand grammar budget
          else do
            let first ← operand grammar
            steps grammar false grammar.budget first
        if ← atSign "(" then
          let inputs ← arguments grammar
          finish .newExpression start [callee.as .callee, inputs.as .arguments]
        else
          finish .newExpression start [callee.as .callee]

/-- An operand with its members and calls, and a step operator behind it on the same line.  A
bracket behind the operator goes on with the expression, also on a new line. -/
def stepped (grammar : Grammar) : Reader Sketch := do
  let first ←
    if ← atWord "new" then newOperand grammar grammar.budget else operand grammar
  let whole ← steps grammar true grammar.budget first
  let cursor ← get
  if ! cursor.newline && (cursor.isSign "++" || cursor.isSign "--") then
    let sign ← leaf .operator
    let updated ← finish .updateExpression whole.start [whole.as .argument, sign.as .operator]
    steps grammar true grammar.budget updated
  else
    return whole

/-! ## Operators -/

/-- The signs and words before an operand. -/
def isPrefixSign (cursor : Cursor) : Bool :=
  cursor.isSign "!" || cursor.isSign "~" || cursor.isSign "-" || cursor.isSign "+" ||
    cursor.isWord "typeof" || cursor.isWord "void" || cursor.isWord "delete"

/-- The word `await` is an operator if an operand follows; otherwise it is a name. -/
def awaits : Reader Bool := do
  if ← atWord "await" then
    match (← following).lexeme with
    | .word letters => return letters != "in".toList && letters != "instanceof".toList &&
        letters != "of".toList
    | .number | .string => return true
    | .sign chars => return "([\x7b!~\x60+-/<".toList.contains (chars.head?.getD ' ')
    | _ => return false
  else
    return false

/-- An operand with the operators before it. -/
def unaryOf (grammar : Grammar) : Reader Sketch := do
  let cursor ← get
  if isPrefixSign cursor then
    let sign ← leaf .operator
    let inner ← grammar.unary
    finish .unaryExpression cursor.start [sign.as .operator, inner.as .argument]
  else if cursor.isSign "++" || cursor.isSign "--" then
    let sign ← leaf .operator
    let inner ← grammar.unary
    finish .updateExpression cursor.start [sign.as .operator, inner.as .argument]
  else if ← awaits then
    advance
    let inner ← grammar.unary
    finish .awaitExpression cursor.start [inner]
  else
    stepped grammar

/-- Operators between two operands with their strength. -/
def binarySigns : List (List Char × Nat) :=
  [ ("??".toList, 1), ("||".toList, 2), ("&&".toList, 3), ("|".toList, 4), ("^".toList, 5),
    ("&".toList, 6), ("==".toList, 7), ("!=".toList, 7), ("===".toList, 7), ("!==".toList, 7),
    ("<".toList, 8), (">".toList, 8), ("<=".toList, 8), (">=".toList, 8), ("<<".toList, 9),
    (">>".toList, 9), (">>>".toList, 9), ("+".toList, 10), ("-".toList, 10), ("*".toList, 11),
    ("/".toList, 11), ("%".toList, 11), ("**".toList, 12) ]

/-- The strength of the operator at the cursor. -/
def strength? (cursor : Cursor) : Option Nat :=
  match cursor.lexeme with
  | .sign chars => binarySigns.lookup chars
  | .word letters =>
      if letters == "instanceof".toList || (letters == "in".toList && cursor.allowIn) then some 8
      else none
  | _ => none

/-- Operators of at least a certain strength with the operands behind them. The power operator
takes its right side first, all others their left side. -/
def binaryFrom (grammar : Grammar) (least : Nat) : Nat → Sketch → Reader Sketch
  | 0, left => return left
  | budget + 1, left => do
      match strength? (← get) with
      | none => return left
      | some strength =>
          if strength < least then
            return left
          else
            let sign ← leaf .operator
            let right ← grammar.binary (if strength == 12 then 12 else strength + 1)
            let whole ← finish .binaryExpression left.start
              [left.as .left, sign.as .operator, right.as .right]
            binaryFrom grammar least budget whole

/-- Operands with operators of at least a certain strength between them. -/
def binaryOf (grammar : Grammar) (least : Nat) : Reader Sketch := do
  let left ← unaryOf grammar
  binaryFrom grammar least grammar.budget left

/-- A choice between two expressions, or an expression without one. -/
def ternaryOf (grammar : Grammar) : Reader Sketch := do
  let condition ← binaryOf grammar 0
  if ← optionalSign "?" then
    let consequence ← withIn true grammar.assignment
    sign ":"
    let alternative ← grammar.assignment
    finish .ternaryExpression condition.start
      [condition.as .condition, consequence.as .consequence, alternative.as .alternative]
  else
    return condition

/-- Signs that assign the result of an operation. -/
def augmentedSigns : List (List Char) :=
  [ "+=".toList, "-=".toList, "*=".toList, "/=".toList, "%=".toList, "**=".toList,
    "<<=".toList, ">>=".toList, ">>>=".toList, "&=".toList, "|=".toList, "^=".toList,
    "&&=".toList, "||=".toList, "??=".toList ]

/-- What a generator yields. -/
def yielded (grammar : Grammar) : Reader Sketch := do
  let start := (← get).start
  word "yield"
  let cursor ← get
  let all ← if cursor.newline then pure false else optionalSign "*"
  let ends := ! all && (cursor.newline || [")", "]", "\x7d", ",", ";", ":"].any cursor.isSign ||
    cursor.lexeme == .finish)
  if ends then
    finish .yieldExpression start []
  else
    let inner ← grammar.assignment
    finish .yieldExpression start [inner]

/-- One expression without commas outside of brackets. -/
def assignmentOf (grammar : Grammar) : Reader Sketch := do
  if ← atWord "yield" then
    yielded grammar
  else
    let left ← ternaryOf grammar
    let cursor ← get
    if cursor.isSign "=" then
      advance
      let right ← grammar.assignment
      finish .assignmentExpression left.start [left.toPattern.as .left, right.as .right]
    else
      match cursor.lexeme with
      | .sign chars =>
          if augmentedSigns.contains chars then
            let sign ← leaf .operator
            let right ← grammar.assignment
            finish .augmentedAssignmentExpression left.start
              [left.as .left, sign.as .operator, right.as .right]
          else
            return left
      | _ => return left

/-- Expressions separated by commas. -/
def expressionOf (grammar : Grammar) : Reader Sketch := do
  let first ← assignmentOf grammar
  let others ← many (do
    if ← optionalSign "," then return some (← grammar.assignment) else return none) grammar.budget
  if others.isEmpty then
    return first
  else
    finish .sequenceExpression first.start (first :: others)

end Grammar
end Script
end Hookify
