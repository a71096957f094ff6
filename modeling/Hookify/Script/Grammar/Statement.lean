import Hookify.Script.Grammar.Expression

namespace Hookify
namespace Script
namespace Grammar

open Reader

/-!
# Statements

A statement that cannot be read becomes an error node from its first lexeme up
to the last one that fitted, and the reading goes on behind it.  So a fault in
one statement leaves the others of its list as they are, and the nodes that
were complete before the fault are still found in the error node.
-/

/-! ## Declarations -/

/-- A variable with its initial value, if it has one. -/
def declarator (grammar : Grammar) : Reader Sketch := do
  let left ← target grammar
  if ← optionalSign "=" then
    let right ← grammar.assignment
    finish .variableDeclarator left.start [left.as .name, right.as .value]
  else
    finish .variableDeclarator left.start [left.as .name]

/-- Variables separated by commas. -/
def declarators (grammar : Grammar) : Reader (List Sketch) := do
  let first ← declarator grammar
  let others ← many (do
    if ← optionalSign "," then return some (← declarator grammar) else return none) grammar.budget
  return first :: others

/-- The last variable of a declaration has a value, so that an operator could follow. -/
def endsInValue (declared : List Sketch) : Bool :=
  match declared.getLast? with
  | some last => last.children.length == 2
  | none => false

/-- A declaration with `var`, `let` or `const`. -/
def declaration (grammar : Grammar) : Reader Sketch := do
  let cursor ← get
  advance
  let declared ← declarators grammar
  semicolon (endsInValue declared)
  finish (if cursor.isWord "var" then .variableDeclaration else .lexicalDeclaration) cursor.start
    declared

/-- The word `let` begins a declaration if something to declare follows. -/
def atDeclaration : Reader Bool := do
  let cursor ← get
  if cursor.isWord "var" || cursor.isWord "const" then
    return true
  else if cursor.isWord "let" then
    let next ← following
    return next.isName || next.isSign "[" || next.isSign "\x7b"
  else
    return false

/-! ## Control flow -/

/-- An expression in parentheses. -/
def condition (grammar : Grammar) : Reader Sketch := do
  let start := (← get).start
  sign "("
  let inner ← withIn true grammar.expression
  sign ")"
  finish .parenthesizedExpression start [inner]

/-- A conditional statement. -/
def ifStatement (grammar : Grammar) : Reader Sketch := do
  let start := (← get).start
  word "if"
  let test ← condition grammar
  let consequence ← grammar.statement
  let elseStart := (← get).start
  if ← atWord "else" then
    advance
    let body ← grammar.statement
    let clause ← finish .elseClause elseStart [body]
    finish .ifStatement start
      [test.as .condition, consequence.as .consequence, clause.as .alternative]
  else
    finish .ifStatement start [test.as .condition, consequence.as .consequence]

/-- The loop over members or elements, from its operator on. -/
def forInTail (grammar : Grammar) (start : Nat) (left : List Sketch) : Reader Sketch := do
  let operator ← leaf .operator
  let right ← withIn true grammar.expression
  sign ")"
  let body ← grammar.statement
  finish .forInStatement start
    (left ++ [operator.as .operator, right.as .right, body.as .body])

/-- The cursor is at the operator of a loop over members or elements. -/
def atLoopOperator : Reader Bool := do
  return (← get).isWord "of" || (← get).isWord "in"

/-- An expression with a semicolon behind it, or only the semicolon. -/
def clause (grammar : Grammar) (field : Field) : Reader (List Sketch) := do
  if ← atSign ";" then
    return [(← leaf .emptyStatement).as field]
  else
    let inner ← withIn true grammar.expression
    sign ";"
    return [inner.as field]

/-- The counting loop, from its condition on. -/
def forTail (grammar : Grammar) (start : Nat) (initializer : List Sketch) : Reader Sketch := do
  let test ← clause grammar .condition
  let increment ←
    if ← atSign ")" then pure []
    else pure [(← withIn true grammar.expression).as .increment]
  sign ")"
  let body ← grammar.statement
  finish .forStatement start (initializer ++ test ++ increment ++ [body.as .body])

/-- A loop with a head in parentheses. -/
def forStatement (grammar : Grammar) : Reader Sketch := do
  let start := (← get).start
  word "for"
  if ← atWord "await" then
    advance
  sign "("
  if ← atSign ";" then
    forTail grammar start [(← leaf .emptyStatement).as .initializer]
  else if ← atDeclaration then
    let cursor ← get
    advance
    let declared ← withIn false (declarators grammar)
    if ← atLoopOperator then
      match declared with
      | [single] =>
          let left := single.children.map fun child =>
            if child.field == some .name then child.as .left else child
          forInTail grammar start left
      | _ => fail
    else
      sign ";"
      let kind := if cursor.isWord "var" then Kind.variableDeclaration else .lexicalDeclaration
      let initializer ← finish kind cursor.start declared
      forTail grammar start [initializer.as .initializer]
  else
    let initializer ← withIn false grammar.expression
    if ← atLoopOperator then
      forInTail grammar start [initializer.toPattern.as .left]
    else
      sign ";"
      forTail grammar start [initializer.as .initializer]

/-- A loop with its condition before the body. -/
def whileStatement (grammar : Grammar) : Reader Sketch := do
  let start := (← get).start
  word "while"
  let test ← condition grammar
  let body ← grammar.statement
  finish .whileStatement start [test.as .condition, body.as .body]

/-- A loop with its condition behind the body. -/
def doStatement (grammar : Grammar) : Reader Sketch := do
  let start := (← get).start
  word "do"
  let body ← grammar.statement
  word "while"
  let test ← condition grammar
  unless (← optionalSign ";") do
    let _ ← automaticSemicolon false
  finish .doStatement start [body.as .body, test.as .condition]

/-- The statements under a label of a switch. -/
def caseBody (grammar : Grammar) : Reader (List Sketch) :=
  many (do
    let cursor ← get
    if cursor.isWord "case" || cursor.isWord "default" || cursor.isSign "\x7d" then
      return none
    else
      return some ((← grammar.statement).as .body)) grammar.budget

/-- A label of a switch with its statements. -/
def switchCase (grammar : Grammar) : Reader Sketch := do
  let start := (← get).start
  if ← atWord "default" then
    advance
    sign ":"
    let body ← caseBody grammar
    finish .switchDefault start body
  else
    word "case"
    let value ← withIn true grammar.expression
    sign ":"
    let body ← caseBody grammar
    finish .switchCase start (value.as .value :: body)

/-- A choice between several values. -/
def switchStatement (grammar : Grammar) : Reader Sketch := do
  let start := (← get).start
  word "switch"
  let value ← condition grammar
  let bodyStart := (← get).start
  sign "\x7b"
  let cases ← many (do
    if ← atSign "\x7d" then return none else return some (← switchCase grammar)) grammar.budget
  sign "\x7d"
  let body ← finish .switchBody bodyStart cases
  let _ ← automaticSemicolon false
  finish .switchStatement start [value.as .value, body.as .body]

/-- A block whose failures are handled. -/
def tryStatement (grammar : Grammar) : Reader Sketch := do
  let start := (← get).start
  word "try"
  let body ← block grammar false
  let handlerStart := (← get).start
  let handler ←
    if ← atWord "catch" then do
      advance
      let caught ←
        if ← optionalSign "(" then do
          let input ← target grammar
          sign ")"
          pure [input.as .parameter]
        else
          pure []
      let inner ← block grammar false
      pure [(← finish .catchClause handlerStart (caught ++ [inner.as .body])).as .handler]
    else
      pure []
  let finalStart := (← get).start
  let finalizer ←
    if ← atWord "finally" then do
      advance
      let inner ← block grammar false
      pure [(← finish .finallyClause finalStart [inner.as .body]).as .finalizer]
    else
      pure []
  finish .tryStatement start ([body.as .body] ++ handler ++ finalizer)

/-- A statement with an object whose members are in scope. -/
def withStatement (grammar : Grammar) : Reader Sketch := do
  let start := (← get).start
  word "with"
  let object ← condition grammar
  let body ← grammar.statement
  finish .withStatement start [object.as .object, body.as .body]

/-- A jump to the end of a loop, with or without a label. -/
def jump (kind : Kind) : Reader Sketch := do
  let start := (← get).start
  advance
  let cursor ← get
  let label ←
    if cursor.isName && ! cursor.newline then
      pure [(← leaf .statementIdentifier).as .label]
    else
      pure []
  semicolon false
  finish kind start label

/-- The end of a function with its result, if it has one. -/
def returnStatement (grammar : Grammar) : Reader Sketch := do
  let start := (← get).start
  word "return"
  let cursor ← get
  if cursor.newline || cursor.isSign ";" || cursor.isSign "\x7d" || cursor.lexeme == .finish then
    semicolon false
    finish .returnStatement start []
  else
    let value ← grammar.expression
    semicolon true
    finish .returnStatement start [value]

/-- The throwing of a value. -/
def throwStatement (grammar : Grammar) : Reader Sketch := do
  let start := (← get).start
  word "throw"
  let value ← grammar.expression
  semicolon true
  finish .throwStatement start [value]

/-! ## Modules -/

/-- A name in a list of what is imported or exported. -/
def moduleName : Reader Sketch := do
  match (← get).lexeme with
  | .word _ => leaf .identifier
  | .string => leaf .string
  | _ => fail

/-- A name, and the name under which it goes on. -/
def specifier (kind : Kind) : Reader Sketch := do
  let first ← moduleName
  if ← atWord "as" then
    advance
    let second ← moduleName
    finish kind first.start [first.as .name, second.as .alias]
  else
    finish kind first.start [first.as .name]

/-- Everything of a module under one name. -/
def namespaceOf (kind : Kind) : Reader Sketch := do
  let start := (← get).start
  sign "*"
  word "as"
  let inner ← moduleName
  finish kind start [inner]

/-- Names in braces. -/
def specifiers (grammar : Grammar) (clause item : Kind) : Reader Sketch := do
  let start := (← get).start
  sign "\x7b"
  let items ← commaItems grammar "\x7d" (specifier item)
  finish clause start items

/-- What an import brings into scope. -/
def importClause (grammar : Grammar) : Reader Sketch := do
  let start := (← get).start
  let default ← if (← get).isName then pure [← name] else pure []
  if ! default.isEmpty then
    let _ ← optionalSign ","
  let others ←
    if ← atSign "*" then pure [← namespaceOf .namespaceImport]
    else if ← atSign "\x7b" then pure [← specifiers grammar .namedImports .importSpecifier]
    else pure []
  finish .importClause start (default ++ others)

/-- The attributes of an import. -/
def importAttributes (grammar : Grammar) : Reader (List Sketch) := do
  let cursor ← get
  if (cursor.isWord "with" || cursor.isWord "assert") && ! cursor.newline then
    advance
    let inner ← object grammar
    return [← finish .importAttribute cursor.start [inner]]
  else
    return []

/-- An import of a module. -/
def importStatement (grammar : Grammar) : Reader Sketch := do
  let start := (← get).start
  word "import"
  let clauses ←
    match (← get).lexeme with
    | .string => pure []
    | _ => do
        let inner ← importClause grammar
        word "from"
        pure [inner]
  let source ← leaf .string
  let attributes ← importAttributes grammar
  semicolon false
  finish .importStatement start (clauses ++ [source.as .source] ++ attributes)

/-- The module that an export comes from, if it is another one. -/
def exportSource (grammar : Grammar) : Reader (List Sketch) := do
  if ← atWord "from" then
    advance
    let source ← leaf .string
    let attributes ← importAttributes grammar
    return source.as .source :: attributes
  else
    return []

/-- The default export of a module. -/
def exportDefault (grammar : Grammar) (start : Nat) : Reader Sketch := do
  advance
  let cursor ← get
  let next ← following
  let head :=
    if cursor.isWord "async" && next.isWord "function" then next.advance
    else if cursor.isWord "function" || cursor.isWord "class" then next
    else cursor
  let named := if head.isSign "*" then head.advance.isName else head.isName
  if head.start != cursor.start && named then
    let inner ← grammar.statement
    finish .exportStatement start [inner.as .declaration]
  else
    let value ← grammar.assignment
    semicolon true
    finish .exportStatement start [value.as .value]

/-- An export. -/
def exportStatement (grammar : Grammar) : Reader Sketch := do
  let start := (← get).start
  word "export"
  let cursor ← get
  if cursor.isWord "default" then
    exportDefault grammar start
  else if cursor.isSign "*" then
    let next ← following
    let clauses ← if next.isWord "as" then pure [← namespaceOf .namespaceExport] else do
      advance
      pure []
    let source ← exportSource grammar
    semicolon false
    finish .exportStatement start (clauses ++ source)
  else if cursor.isSign "\x7b" then
    let clauses ← specifiers grammar .exportClause .exportSpecifier
    let source ← exportSource grammar
    semicolon false
    finish .exportStatement start (clauses :: source)
  else
    let inner ← grammar.statement
    finish .exportStatement start [inner.as .declaration]

/-! ## The choice of a statement -/

/-- A statement that is only an expression. -/
def expressionStatement (grammar : Grammar) : Reader Sketch := do
  let start := (← get).start
  let inner ← expressionOf grammar
  semicolon true
  finish .expressionStatement start [inner]

/-- A statement that begins with a name: it may be a label. -/
def nameStatement (grammar : Grammar) : Reader Sketch := do
  let cursor ← get
  if cursor.isName && (← following).isSign ":" then
    let label ← leaf .statementIdentifier
    sign ":"
    let body ← grammar.statement
    finish .labeledStatement cursor.start [label.as .label, body.as .body]
  else
    expressionStatement grammar

/-- A statement that begins with a word. -/
def wordStatement (grammar : Grammar) (letters : List Char) : Reader Sketch := do
  match String.ofList letters with
  | "if" => ifStatement grammar
  | "for" => forStatement grammar
  | "while" => whileStatement grammar
  | "do" => doStatement grammar
  | "switch" => switchStatement grammar
  | "try" => tryStatement grammar
  | "with" => withStatement grammar
  | "break" => jump .breakStatement
  | "continue" => jump .continueStatement
  | "debugger" => jump .debuggerStatement
  | "return" => returnStatement grammar
  | "throw" => throwStatement grammar
  | "function" => function grammar true
  | "class" => classOf grammar true
  | "export" => exportStatement grammar
  | "import" =>
      let next ← following
      if next.isSign "(" || next.isSign "." then expressionStatement grammar
      else importStatement grammar
  | "async" =>
      let next ← following
      if next.isWord "function" && ! next.newline then function grammar true
      else nameStatement grammar
  | _ => if ← atDeclaration then declaration grammar else nameStatement grammar

/-- A statement. -/
def statementOf (grammar : Grammar) : Reader Sketch := do
  let cursor ← get
  match cursor.lexeme with
  | .word letters => wordStatement grammar letters
  | _ =>
      if cursor.isSign "\x7b" then block grammar false
      else if cursor.isSign ";" then leaf .emptyStatement
      else if cursor.isSign "@" then classOf grammar true
      else expressionStatement grammar

/-! ## Lists of statements -/

/-- The text begins a comment of a page, which goes on to the end of the line. -/
def beginsHtmlComment (chars : List Char) : Bool :=
  "<!--".toList.isPrefixOf chars || "-->".toList.isPrefixOf chars

/-- Pass over comments of a page. -/
def passHtmlComments : Nat → Reader Unit
  | 0 => return
  | budget + 1 => do
      let cursor ← get
      if beginsHtmlComment cursor.here then
        let length := (cursor.here.takeWhile (! isLineEnd ·)).length
        let remark : Remark := ⟨true, cursor.start, cursor.start + length⟩
        set ({ cursor.takeHere length with remarks := remark :: cursor.remarks }).resume
        passHtmlComments budget

/-- The lexemes of a statement that could not be read, with the nodes among them. If there is none,
the lexeme at which the reading failed stands alone. -/
def errorAt (before failed : Cursor) : Reader Sketch := do
  if failed.last ≤ before.start then
    set { before with allowIn := true }
    leaf .error
  else
    set { failed with allowIn := true }
    finish .error before.start (failed.nodes.takeWhile (before.start ≤ ·.start)).reverse

/-- The next statement of a list, up to a closing brace or the end of the script. -/
def nextStatement (grammar : Grammar) (untilBrace : Bool) : Reader (Option Sketch) := do
  passHtmlComments grammar.budget
  let cursor ← get
  if cursor.lexeme == .finish || (untilBrace && cursor.isSign "\x7d") then
    return none
  else
    match grammar.statement cursor with
    | .ok statement next =>
        set next
        return some statement
    | .error _ failed => return some (← errorAt cursor failed)

/-- The statements of a list. -/
def statementsOf (grammar : Grammar) (untilBrace : Bool) : Reader (List Sketch) :=
  many (nextStatement grammar untilBrace) grammar.budget

end Grammar

/-- The grammar for parts that are nested up to a certain depth. -/
def grammarOf (budget : Nat) : Nat → Grammar
  | 0 => Grammar.empty budget
  | depth + 1 =>
      let grammar := grammarOf budget depth
      { budget := budget
        expression := grammar.expressionOf
        assignment := grammar.assignmentOf
        unary := grammar.unaryOf
        binary := grammar.binaryOf
        element := grammar.markup
        statement := grammar.statementOf
        statements := grammar.statementsOf true }

end Script
end Hookify
