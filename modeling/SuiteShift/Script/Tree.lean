/-!
# Syntax trees of scripts

A tree has a kind, the role it plays in its parent, the extent and the text that it was read
from, and its children in source order. Only named parts of the grammar are nodes: keywords and
punctuation are not. Comments are nodes, so that they can be carried over.

- `Tree.child?` is the first child with a role.
- `Tree.containsKind` looks for kinds anywhere in a tree.
-/

namespace SuiteShift
namespace Script

/-- A position: row from zero, column in bytes of UTF-8 from zero. -/
structure Point where
  row : Nat
  column : Nat
deriving DecidableEq, Repr, Inhabited

/-- Where a tree starts and where it ends. -/
structure Extent where
  start : Point
  stop : Point
deriving DecidableEq, Repr, Inhabited

/-- The kinds of nodes. -/
inductive Kind where
  | program
  | hashBang
  | comment
  -- statements
  | statementBlock
  | emptyStatement
  | expressionStatement
  | lexicalDeclaration
  | variableDeclaration
  | variableDeclarator
  | functionDeclaration
  | generatorFunctionDeclaration
  | functionSignature
  | classDeclaration
  | abstractClassDeclaration
  | interfaceDeclaration
  | enumDeclaration
  | typeAliasDeclaration
  | ambientDeclaration
  | namespaceDeclaration
  | importStatement
  | importAlias
  | exportStatement
  | ifStatement
  | elseClause
  | switchStatement
  | switchCase
  | forStatement
  | forInStatement
  | whileStatement
  | doStatement
  | tryStatement
  | catchClause
  | finallyClause
  | withStatement
  | labeledStatement
  | returnStatement
  | throwStatement
  | breakStatement
  | continueStatement
  | debuggerStatement
  -- expressions
  | identifier
  | propertyIdentifier
  | privateIdentifier
  | this
  | super
  | null
  | undefined
  | true
  | false
  | number
  | string
  | templateString
  | stringFragment
  | escapeSequence
  | templateSubstitution
  | regex
  | array
  | object
  | pair
  | shorthand
  | methodDefinition
  | spreadElement
  | computedName
  | parenthesizedExpression
  | sequenceExpression
  | assignmentExpression
  | ternaryExpression
  | binaryExpression
  | unaryExpression
  | updateExpression
  | awaitExpression
  | yieldExpression
  | asExpression
  | satisfiesExpression
  | nonNullExpression
  | typeAssertion
  | newExpression
  | callExpression
  | memberExpression
  | subscriptExpression
  | instantiationExpression
  | importKeyword
  | metaProperty
  | arguments
  | arrowFunction
  | functionExpression
  | generatorFunction
  | formalParameters
  | requiredParameter
  | optionalParameter
  | objectPattern
  | arrayPattern
  | restPattern
  | classExpression
  | classBody
  | fieldDefinition
  | classStaticBlock
  | decorator
  -- types
  | typeArguments
  | typeParameters
  | type
deriving DecidableEq, Repr, Inhabited

/-- The role of a node in its parent. -/
inductive Role where
  | plain
  | function
  | arguments
  | object
  | property
  | parameters
  | parameter
  | pattern
  | body
  | source
deriving DecidableEq, Repr, Inhabited

/-- A syntax tree. -/
inductive Tree where
  | node (kind : Kind) (role : Role) (extent : Extent) (text : String) (children : List Tree)
deriving Inhabited

namespace Tree

/-- The kind of the root. -/
def kind : Tree → Kind
  | .node kind _ _ _ _ => kind

/-- The role of the root in its parent. -/
def role : Tree → Role
  | .node _ role _ _ _ => role

/-- The extent of the root. -/
def extent : Tree → Extent
  | .node _ _ extent _ _ => extent

/-- The source text of the root. -/
def text : Tree → String
  | .node _ _ _ text _ => text

/-- The children of the root. -/
def children : Tree → List Tree
  | .node _ _ _ _ children => children

/-- The tree in another role. -/
def withRole (role : Role) : Tree → Tree
  | .node kind _ extent text children => .node kind role extent text children

/-- The tree with another kind. -/
def withKind (kind : Kind) : Tree → Tree
  | .node _ role extent text children => .node kind role extent text children

/-- The first child with a role. -/
def child? (tree : Tree) (role : Role) : Option Tree :=
  tree.children.find? fun child => child.role == role

mutual

/-- The root or a descendant is of one of the kinds. -/
def containsKind (kinds : List Kind) : Tree → Bool
  | .node kind _ _ _ children => kinds.contains kind || anyContainsKind kinds children

/-- Some tree of the list contains one of the kinds. -/
def anyContainsKind (kinds : List Kind) : List Tree → Bool
  | [] => Bool.false
  | tree :: trees => tree.containsKind kinds || anyContainsKind kinds trees

end

end Tree
end Script
end SuiteShift
