import Hookify.Script.Tree
import Hookify.Text.Letter
import Hookify.Text.Segments

namespace Hookify
namespace Script

/-!
# Functions and variables of a script

Small questions about function nodes and declarations, asked in many places.
-/

/-- The parameters of a function as text, without parentheses and line breaks. -/
def parametersText (function : Place) : String :=
  match function.child? .parameter with
  | some parameter => parameter.text
  | none =>
      match function.child? .parameters with
      | some parameters =>
          let chars := Text.trimChars parameters.text.toList
          Text.flatten (String.ofList ((Text.enclosed? '(' ')' chars).getD chars))
      | none => ""

/-- The characters of a plain parameter. -/
def isParameterPart (c : Char) : Bool :=
  Text.isAsciiAlphanumeric c || c == '_' || c == '$'

/-- The first parameter of a list, if it is a plain name. -/
def firstParameter? (parameters : String) : Option String :=
  let first := Text.trimChars (parameters.toList.takeWhile (· != ','))
  if ! first.isEmpty && first.all isParameterPart then some (String.ofList first) else none

/-- The statements of a script or a block: all named children that are no comments. -/
def statementsOf (body : Place) : List Place :=
  body.contents

/-- The expression of a statement that is only an expression. -/
def statementExpression? (statement : Place) : Option Place :=
  if statement.kind == .expressionStatement then statement.namedChildren.head? else none

/-- The variables of a declaration that have a plain name, with their initial values. -/
def declarators (declaration : Place) : List (String × Option Place) :=
  (declaration.namedChildren.filter (·.kind == .variableDeclarator)).filterMap fun declarator =>
    match declarator.child? .name with
    | some name =>
        if name.kind == .identifier then some (name.text, declarator.child? .value) else none
    | none => none

/-- Every variable of a declaration has a plain name. -/
def isSimpleDeclaration (declaration : Place) : Bool :=
  (declaration.namedChildren.filter (·.kind == .variableDeclarator)).all fun declarator =>
    match declarator.child? .name with
    | some name => name.kind == .identifier
    | none => false

/-- The named functions that a statement defines. -/
def definedFunctions (statement : Place) : List (String × Place) :=
  if statement.kind.isFunctionDeclaration then
    match statement.child? .name with
    | some name => [(name.text, statement)]
    | none => []
  else if statement.kind.isVariables then
    (declarators statement).filterMap fun (name, value) =>
      (value.filter (·.kind.isFunctionLike)).map fun function => (name, function)
  else
    []

end Script
end Hookify
