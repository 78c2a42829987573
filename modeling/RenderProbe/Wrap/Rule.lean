import RenderProbe.Component.Detection
import RenderProbe.Source.Patch
import RenderProbe.Source.Snippet

/-!
# Rewriting rules

Each export shape that can be wrapped has a rule. A rule finds the declarations of the wanted name
in an export statement and says which patches wrap them; a declaration is wrapped only if detection
accepts it, and a value that already is a call to the wrapper is no match.
-/

namespace RenderProbe.Wrap

open Syntax (Node)
open Component (Criteria)

/-- The rules in the order they are tried on a statement. -/
inductive Rule where
  | defaultDeclaration
  | defaultIdentifier
  | namedVariable
  | namedFunction
  deriving DecidableEq, Inhabited

def Rule.label : Rule → String
  | defaultDeclaration => "default-declaration"
  | defaultIdentifier => "default-identifier"
  | namedVariable => "named-variable"
  | namedFunction => "named-function"

def rules : List Rule :=
  [.defaultDeclaration, .defaultIdentifier, .namedVariable, .namedFunction]

/-- One wrap of one name in one source, with all that the rules need to know of it. The bytes are
those of the source, since the positions of nodes count bytes. -/
structure Rewrite where
  bytes : List UInt8
  name : String
  symbol : String
  newline : String
  style : QuoteStyle
  criteria : Criteria
  /-- The export statements of the name's overload signatures. -/
  overloads : List Node

/-- A declaration that a rule can wrap, and the patches that do it. -/
structure Match where
  declaration : Declaration
  patches : List Patch

/-! ## Keywords -/

/-- The offset after the spaces and tabs that follow an offset. -/
def afterBlanks (bytes : List UInt8) (offset : Nat) : Nat :=
  offset + ((bytes.drop offset).takeWhile fun byte => byte == 32 || byte == 9).length

/-- The patches that delete the export keywords of a statement and the blanks after each. Comments
and line breaks between the keywords stay, as they are no part of what is taken away. -/
def keywordDeletions (bytes : List UInt8) (statement : Node) : List Patch :=
  (statement.children.filter fun child =>
    child.kind == .token && (child.lexeme == "export" || child.lexeme == "default")).map
    fun child => Patch.delete child.span.start (afterBlanks bytes child.span.stop)

/-- Whether a statement exports an overload signature of a name, not as the default. Signatures are
exported together with their implementation or not at all, so they have to follow it. -/
def exportsSignature (name : String) (statement : Node) : Bool :=
  statement.kind == .exportStatement && !statement.hasKeyword "default"
    && (statement.child? .declaration).any fun declaration =>
      declaration.kind == .functionSignature && declaration.declaredName? == some name

def overloadSignatures (root : Node) (name : String) : List Node :=
  root.namedChildren.filter (exportsSignature name)

/-! ## Shapes -/

/-- A function or class that a default export declares or has as its value. In parentheses it is an
expression, whose name is not bound in the module, and no longer found here. -/
def defaultFunctionOrClass? (statement : Node) : Option Node :=
  let isNamedValue (node : Node) : Bool :=
    node.kind == .functionExpression || node.kind == .classExpression
  match statement.child? .declaration with
  | some declaration =>
    if declaration.kind == .functionDeclaration || Declaration.isClassKind declaration.kind
        || isNamedValue declaration then some declaration
    else none
  | none => (statement.child? .value).filter isNamedValue

/-- A default export of a function or class: the declaration loses its keywords and the wrapped
default export follows it. The declaration itself stays in place, so its name is in scope where it
was before. -/
def Rewrite.defaultDeclaration (rewrite : Rewrite) (statement : Node) : List Match :=
  if !statement.hasKeyword "default" then []
  else match defaultFunctionOrClass? statement with
    | none => []
    | some declaration =>
      if declaration.declaredName? != some rewrite.name then []
      else
        let kind := if Declaration.isClassKind declaration.kind then
          DeclarationKind.classDeclaration else .function
        [⟨⟨rewrite.name, kind, .default, some declaration⟩,
          keywordDeletions rewrite.bytes statement ++
            [Patch.insert statement.span.stop (rewrite.newline
              ++ Snippet.defaultExport rewrite.style rewrite.symbol rewrite.name)]⟩]

/-- A default export of a name: the value becomes the wrapped name. The declaration of the name is
not touched, so other uses of it in the module see the component without the wrapper. -/
def Rewrite.defaultIdentifier (rewrite : Rewrite) (statement : Node) : List Match :=
  if !statement.hasKeyword "default" || (statement.child? .declaration).isSome then []
  else match statement.child? .value with
    | none => []
    | some value =>
      let isReference := value.unwrap.any fun reference =>
        reference.kind == .identifier && reference.lexeme == rewrite.name
      if value.isCallTo rewrite.symbol || !isReference then []
      else
        [⟨⟨rewrite.name, .reference, .default, none⟩,
          [⟨value.span.start, value.span.stop,
            Snippet.wrapCall rewrite.style rewrite.symbol rewrite.name rewrite.name⟩]⟩]

/-- Whether a value looks like a component before its returns are examined: a function, or a call
that makes one. What detection makes of it is asked later, and of every match alike. -/
def isLikelyComponent (helpers : List String) (value : Node) : Bool :=
  value.unwrap.any fun node => match node.kind with
    | .functionExpression | .arrowFunction => true
    | .call => node.calleeName?.any helpers.contains
    | _ => false

def Rewrite.textOf (rewrite : Rewrite) (node : Node) : String :=
  Patch.sliceText rewrite.bytes node.span.start node.span.stop

/-- A variable of the name: its value becomes the first argument of the wrapper. A value that is a
call to the wrapper already is no match, which keeps a second wrap from nesting calls. -/
def Rewrite.declaratorMatch? (rewrite : Rewrite) (declarator : Node) : Option Match :=
  match declarator.child? .name, declarator.child? .value with
  | some name, some value =>
    if name.lexeme != rewrite.name || value.isCallTo rewrite.symbol
        || !isLikelyComponent rewrite.criteria.helpers value then none
    else
      some ⟨⟨rewrite.name, .initializer, .named, some value⟩,
        [⟨value.span.start, value.span.stop,
          Snippet.wrapCall rewrite.style rewrite.symbol (rewrite.textOf value) rewrite.name⟩]⟩
  | _, _ => none

/-- A named export of variables: each value of the name is wrapped in place. One statement may
declare several names, and the others keep their values. -/
def Rewrite.namedVariable (rewrite : Rewrite) (statement : Node) : List Match :=
  if statement.hasKeyword "default" then []
  else match statement.child? .declaration with
    | none => []
    | some declaration => declaration.declarators.filterMap rewrite.declaratorMatch?

/-- A named export of a function: the function and its overload signatures lose their keywords and
the wrapped export follows. The signatures may stand in other statements, which is why they are
collected beforehand. -/
def Rewrite.namedFunction (rewrite : Rewrite) (statement : Node) : List Match :=
  if statement.hasKeyword "default" then []
  else match statement.child? .declaration with
    | none => []
    | some declaration =>
      if declaration.kind != .functionDeclaration
          || declaration.declaredName? != some rewrite.name then []
      else
        [⟨⟨rewrite.name, .function, .named, some declaration⟩,
          rewrite.overloads.flatMap (keywordDeletions rewrite.bytes)
            ++ keywordDeletions rewrite.bytes statement
            ++ [Patch.insert statement.span.stop (rewrite.newline
              ++ Snippet.namedExport rewrite.style rewrite.symbol rewrite.name)]⟩]

/-- What a rule can wrap in an export statement. -/
def Rewrite.matches (rewrite : Rewrite) (statement : Node) : Rule → List Match
  | .defaultDeclaration => rewrite.defaultDeclaration statement
  | .defaultIdentifier => rewrite.defaultIdentifier statement
  | .namedVariable => rewrite.namedVariable statement
  | .namedFunction => rewrite.namedFunction statement

/-- The patches of a rule on a statement: those of its matches that are components. A shape that can
be wrapped is not enough; what detection does not report is left alone. -/
def Rewrite.patches (rewrite : Rewrite) (statement : Node) (rule : Rule) : List Patch :=
  ((rewrite.matches statement rule).filter
    fun found => rewrite.criteria.accepts found.declaration).flatMap (·.patches)

/-- The first rule that has patches for a statement. At most one rule works on a statement, so the
patches of two rules never meet inside one. -/
def Rewrite.fires? (rewrite : Rewrite) (statement : Node) : Option Rule :=
  if statement.kind == .exportStatement then
    rules.find? fun rule => !(rewrite.patches statement rule).isEmpty
  else none

end RenderProbe.Wrap
