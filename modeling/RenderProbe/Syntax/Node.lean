/-!
# Syntax trees

A module's concrete syntax tree. A node has a kind, the role it plays in its parent, the bytes and
rows it covers, and its children; leaves carry their lexeme. Keywords and punctuation are `token`
leaves, and comments are leaves wherever they stand.

The kinds tell apart what component detection and wrapping look at. Every other statement, clause,
expression, pattern or type has the one kind of its class.
-/

namespace RenderProbe.Syntax

/-- Syntactic classes. -/
inductive Kind where
  /-- A keyword or punctuation mark. -/
  | token
  | comment
  | hashBang
  | program
  | importStatement
  | importClause
  | namespaceImport
  | namedImports
  | importSpecifier
  | exportStatement
  | exportClause
  | exportSpecifier
  | functionDeclaration
  /-- A function declaration without a body. -/
  | functionSignature
  | generatorDeclaration
  | classDeclaration
  | abstractClassDeclaration
  | variableDeclaration
  | declarator
  | expressionStatement
  | returnStatement
  | block
  /-- Any other statement. -/
  | statement
  /-- A part of a statement that holds statements: an `else`, a `catch`, a `case`. -/
  | clause
  | identifier
  /-- A name that is not a value: of a type, a property or a label. -/
  | name
  | stringLiteral
  | parenthesized
  | asExpression
  | satisfiesExpression
  | nonNull
  | call
  | member
  | ternary
  | binary
  | functionExpression
  | arrowFunction
  | generatorExpression
  | classExpression
  | classHeritage
  | extendsClause
  | implementsClause
  | classBody
  | methodDefinition
  /-- A method without a body. -/
  | methodSignature
  | fieldDefinition
  /-- A markup element or fragment. -/
  | markup
  /-- Any other expression. -/
  | expression
  | arguments
  | parameters
  | pattern
  /-- A type, or a part of one. -/
  | type
  | decorator
  deriving DecidableEq, Inhabited

/-- The part a node plays in its parent. -/
inductive Role where
  | plain
  | name
  | alias
  | body
  | declaration
  | value
  | source
  | callee
  | property
  | consequence
  | alternative
  | operator
  | left
  | right
  deriving DecidableEq, Inhabited

/-- The bytes a node covers and the rows they start and end in. -/
structure Span where
  start : Nat
  stop : Nat
  startRow : Nat
  stopRow : Nat
  deriving DecidableEq, Inhabited

/-- A syntax tree. Nodes keep their role, so a parent needs no fields for its parts and one type
serves every kind. -/
structure Node where
  kind : Kind
  role : Role
  span : Span
  /-- The characters of a leaf; empty for a node with children. -/
  lexeme : String
  children : List Node
  deriving Inhabited

namespace Node

def isNamed (node : Node) : Bool :=
  node.kind != .token

def namedChildren (node : Node) : List Node :=
  node.children.filter isNamed

/-- The first child in a role. -/
def child? (node : Node) (role : Role) : Option Node :=
  node.children.find? (·.role == role)

def hasKeyword (node : Node) (keyword : String) : Bool :=
  node.children.any fun child => child.kind == .token && child.lexeme == keyword

def withRole (node : Node) (role : Role) : Node :=
  { node with role }

/-- The first named child that is no comment. In a return statement this is the value, if there is
one. -/
def firstMeaningful? (node : Node) : Option Node :=
  node.children.find? fun child => child.isNamed && child.kind != .comment

end Node

/-- A row of sibling nodes. -/
abbrev Forest := List Node

/-- Give the last node of a row a role. The nodes before it are the comments in front of it, which
play no part in the parent. -/
def Forest.withRole (role : Role) : Forest → Forest
  | [] => []
  | [node] => [node.withRole role]
  | node :: rest => node :: Forest.withRole role rest

end RenderProbe.Syntax
