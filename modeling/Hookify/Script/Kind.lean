namespace Hookify
namespace Script

/-!
# Kinds of syntax nodes

The vocabulary of the syntax tree of a script.  The recognisers look at a small
part of it; the rest is named all the same, so that a tree says what each part
of a script is.
-/

/-- What a node of the syntax tree stands for. -/
inductive Kind where
  -- Statements and what they consist of.
  | program
  | hashBangLine
  | expressionStatement
  | emptyStatement
  | statementBlock
  | variableDeclaration
  | lexicalDeclaration
  | variableDeclarator
  | functionDeclaration
  | generatorFunctionDeclaration
  | classDeclaration
  | ifStatement
  | elseClause
  | forStatement
  | forInStatement
  | whileStatement
  | doStatement
  | switchStatement
  | switchBody
  | switchCase
  | switchDefault
  | tryStatement
  | catchClause
  | finallyClause
  | withStatement
  | breakStatement
  | continueStatement
  | returnStatement
  | throwStatement
  | debuggerStatement
  | labeledStatement
  | statementIdentifier
  | importStatement
  | importClause
  | namespaceImport
  | namedImports
  | importSpecifier
  | importAttribute
  | exportStatement
  | exportClause
  | exportSpecifier
  | namespaceExport
  -- Expressions.
  | identifier
  | propertyIdentifier
  | privatePropertyIdentifier
  | shorthandPropertyIdentifier
  | shorthandPropertyIdentifierPattern
  | this
  | superName
  | nullLiteral
  | trueLiteral
  | falseLiteral
  | undefinedName
  | number
  | string
  | regex
  | templateString
  | stringFragment
  | escapeSequence
  | templateSubstitution
  | array
  | object
  | pair
  | methodDefinition
  | computedPropertyName
  | spreadElement
  | functionExpression
  | generatorFunction
  | arrowFunction
  | classExpression
  | classHeritage
  | classBody
  | classStaticBlock
  | fieldDefinition
  | decorator
  | formalParameters
  | arguments
  | callExpression
  | newExpression
  | memberExpression
  | subscriptExpression
  | optionalChain
  | metaProperty
  | importName
  | parenthesizedExpression
  | sequenceExpression
  | assignmentExpression
  | augmentedAssignmentExpression
  | unaryExpression
  | updateExpression
  | binaryExpression
  | ternaryExpression
  | awaitExpression
  | yieldExpression
  -- Patterns.
  | objectPattern
  | arrayPattern
  | pairPattern
  | assignmentPattern
  | objectAssignmentPattern
  | restPattern
  -- Markup inside a script.
  | jsxElement
  | jsxOpeningElement
  | jsxClosingElement
  | jsxSelfClosingElement
  | jsxAttribute
  | jsxExpression
  | jsxText
  | jsxNamespaceName
  | htmlCharacterReference
  -- What may stand between any two tokens, single tokens, and text that is no syntax.
  | comment
  | htmlComment
  | asyncKeyword
  | operator
  | error
  deriving Repr, DecidableEq, Inhabited

namespace Kind

/-- Single tokens are anonymous: they are children of a node but not among its named ones. -/
def isNamed : Kind → Bool
  | .asyncKeyword | .operator => false
  | _ => true

/-- Function expressions of every form. -/
def isFunctionLike : Kind → Bool
  | .functionExpression | .arrowFunction | .generatorFunction => true
  | _ => false

/-- Functions that bind `this` anew. -/
def isPlainFunction : Kind → Bool
  | .functionExpression | .functionDeclaration | .generatorFunction
  | .generatorFunctionDeclaration | .methodDefinition => true
  | _ => false

/-- Declarations of variables. -/
def isVariables : Kind → Bool
  | .variableDeclaration | .lexicalDeclaration => true
  | _ => false

/-- Declarations of named functions. -/
def isFunctionDeclaration : Kind → Bool
  | .functionDeclaration | .generatorFunctionDeclaration => true
  | _ => false

end Kind

/-- The part that a node plays in its parent. -/
inductive Field where
  | function
  | arguments
  | object
  | property
  | index
  | left
  | right
  | operator
  | argument
  | name
  | value
  | key
  | parameter
  | parameters
  | body
  | label
  | kind
  | condition
  | consequence
  | alternative
  | initializer
  | increment
  | handler
  | finalizer
  | callee
  | source
  | declaration
  | alias
  | decorator
  | openTag
  | closeTag
  deriving Repr, DecidableEq

end Script
end Hookify
