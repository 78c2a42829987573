import RenderProbe.Syntax.Node

/-!
# What an expression refers to

Parentheses, `as`, `satisfies` and the non-null mark do not change what an expression stands for.
`Node.unwrap` looks through them; the callee of a call and the last name of a member chain are read
off what is inside.
-/

namespace RenderProbe.Syntax

/-- A kind of expression that stands for the expression in it: parentheses, the two type assertions
behind a value, and the mark that it is not missing. -/
def Kind.isTransparent : Kind → Bool
  | .parenthesized | .asExpression | .satisfiesExpression | .nonNull => true
  | _ => false

namespace Node

/-- A node that is neither punctuation nor a comment. -/
def isMeaningful (node : Node) : Bool :=
  node.isNamed && node.kind != .comment

mutual

/-- The first node inside that is not transparent. Comments in front of the value are passed over,
and what an assertion says of a value stands behind it. -/
def unwrap : Node → Option Node
  | ⟨kind, role, span, lexeme, children⟩ =>
    if kind.isTransparent then unwrapFirst children else some ⟨kind, role, span, lexeme, children⟩

/-- What the first meaningful node of a row unwraps to. -/
def unwrapFirst : List Node → Option Node
  | [] => none
  | node :: rest => if node.isMeaningful then unwrap node else unwrapFirst rest

end

/-- A nonempty lexeme. -/
def lexeme? (node : Node) : Option String :=
  if node.lexeme == "" then none else some node.lexeme

/-- The name a declaration gives. -/
def declaredName? (node : Node) : Option String :=
  (node.child? .name).bind lexeme?

/-- The name that a call calls: a plain name or the last name of a member chain. The two are not
told apart, so a helper may be taken from a namespace. -/
def calleeName? (call : Node) : Option String :=
  if call.kind == .call then
    match (call.child? .callee).bind unwrap with
    | none => none
    | some callee => match callee.kind with
      | .identifier => some callee.lexeme
      | .member => (callee.child? .property).bind lexeme?
      | _ => none
  else none

/-- The last name of a plain name or member chain, looked through; anything else has none, a call
among it. -/
def referenceName? (node : Node) : Option String :=
  match node.unwrap with
  | none => none
  | some reference => match reference.kind with
    | .identifier | .name => some reference.lexeme
    | .member => (reference.child? .property).bind lexeme?
    | _ => none

def isCallTo (node : Node) (name : String) : Bool :=
  match node.unwrap with
  | none => false
  | some call => call.kind == .call && call.calleeName? == some name

def declarators (declaration : Node) : List Node :=
  if declaration.kind == .variableDeclaration then
    declaration.children.filter (·.kind == .declarator)
  else []

end Node

end RenderProbe.Syntax
