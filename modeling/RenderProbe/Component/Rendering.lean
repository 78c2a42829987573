import RenderProbe.Component.Declaration

/-!
# Values that render

Which expressions are markup, which functions return some, and which classes are components.

* `isMarkup` looks through transparent wrappers, conditional branches and logical operators.
* `functionRenders` looks at every return statement that belongs to the function itself.
-/

namespace RenderProbe.Component

open Syntax (Node Kind Role)

/-- The operators that hand one of their operands on. -/
def logicalOperators : List String :=
  ["&&", "||", "??"]

def hasLogicalOperator (node : Node) : Bool :=
  (node.child? .operator).any fun operator => logicalOperators.contains operator.lexeme

mutual

/-- Whether an expression is an element, a fragment or a call that creates an element, itself or in
one of the branches it may come to. One branch is enough: a component may well render nothing on the
other one. -/
def isMarkup : Node → Bool
  | ⟨kind, role, span, lexeme, children⟩ =>
    if kind.isTransparent then firstIsMarkup children
    else match kind with
      | .markup => true
      | .call => (Node.mk kind role span lexeme children).calleeName? == some "createElement"
      | .ternary => roleIsMarkup .consequence children || roleIsMarkup .alternative children
      | .binary =>
        hasLogicalOperator ⟨kind, role, span, lexeme, children⟩
          && (roleIsMarkup .left children || roleIsMarkup .right children)
      | _ => false

def firstIsMarkup : List Node → Bool
  | [] => false
  | node :: rest => if node.isMeaningful then isMarkup node else firstIsMarkup rest

def roleIsMarkup (role : Role) : List Node → Bool
  | [] => false
  | node :: rest => if node.role == role then isMarkup node else roleIsMarkup role rest

end

/-! ## Return statements -/

/-- A node whose return statements are not those of the function around it. A callback that returns
an element, such as the argument of a `map`, does not make its function a component. -/
def isScopeBoundary : Kind → Bool
  | .functionDeclaration | .functionExpression | .arrowFunction | .generatorExpression
  | .generatorDeclaration | .methodDefinition | .classDeclaration | .abstractClassDeclaration
  | .classExpression | .classBody => true
  | _ => false

mutual

/-- The return statements in a node that stands at a depth of a function's body. What lies deeper
than `maxDepth` is not looked at, so that a deeply nested body costs no more than a shallow one. -/
def returnsIn (maxDepth depth : Nat) : Node → List Node
  | ⟨kind, role, span, lexeme, children⟩ =>
    if kind == .returnStatement then [⟨kind, role, span, lexeme, children⟩]
    else if isScopeBoundary kind || maxDepth ≤ depth then []
    else returnsAmong maxDepth (depth + 1) children

/-- The return statements in a row of nodes at a depth. -/
def returnsAmong (maxDepth depth : Nat) : List Node → List Node
  | [] => []
  | node :: rest =>
    if node.isNamed then returnsIn maxDepth depth node ++ returnsAmong maxDepth depth rest
    else returnsAmong maxDepth depth rest

end

def returnsMarkup (statement : Node) : Bool :=
  statement.firstMeaningful?.any isMarkup

/-- Whether a function returns markup, or nothing at all. A function without a body, or without a
return statement in reach, is given the benefit of the doubt. -/
def functionRenders (maxDepth : Nat) (function : Node) : Bool :=
  match function.child? .body with
  | none => true
  | some body =>
    if body.kind == .block then
      let found := returnsAmong maxDepth 1 body.children
      found.isEmpty || found.any returnsMarkup
    else isMarkup body

/-! ## Classes -/

def superclasses (classNode : Node) : List Node :=
  (classNode.namedChildren.filter (·.kind == .classHeritage)).flatMap fun heritage =>
    let clauses := heritage.namedChildren.filter (·.kind == .extendsClause)
    if clauses.isEmpty then heritage.namedChildren.filter (·.kind != .implementsClause)
    else clauses.flatMap fun clause => clause.children.filter (·.role == .value)

/-- Whether a class extends one of the base classes. Only the last name of what it extends counts,
so the class may be taken from a namespace or stand under an import of the whole library. -/
def extendsBase (baseClasses : List String) (classNode : Node) : Bool :=
  (superclasses classNode).any fun expression =>
    expression.referenceName?.any baseClasses.contains

def definesRender (classNode : Node) : Bool :=
  (classNode.child? .body).any fun body => body.namedChildren.any fun member =>
    (member.kind == .methodDefinition || member.kind == .fieldDefinition)
      && (member.child? .name).any (·.lexeme == "render")

end RenderProbe.Component
