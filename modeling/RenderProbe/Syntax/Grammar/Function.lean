import RenderProbe.Syntax.Grammar.Pattern

/-!
# Functions and classes

Function declarations and expressions, arrow functions, and classes with their members. A function
or class declaration takes in the comments that follow it on its last line.
-/

namespace RenderProbe.Syntax

/-- Whether a keyword or mark is among the nodes. -/
def hasToken (text : String) (nodes : Forest) : Bool :=
  nodes.any fun n => n.kind == .token && n.lexeme == text

def hasBody (nodes : Forest) : Bool :=
  nodes.any (·.role == .body)

def functionBody (g : Grammar) : Parser :=
  role .body (g.call .block)

/-- The keywords that open a function. -/
def functionHead : Parser :=
  seq [optional (word "async"), sameLine (word "function"), optional (mark "*")]

/-- The kind of a function declaration: a generator, a function, or a signature without body. -/
def functionDeclarationKind (nodes : Forest) : Kind :=
  if !hasBody nodes then .functionSignature
  else if hasToken "*" nodes then .generatorDeclaration
  else .functionDeclaration

/-- A function declaration, or the signature of an overload. -/
def functionDeclaration (g : Grammar) : Parser :=
  nodeBy functionDeclarationKind (seq [
    optional (word "async"), word "function", optional (mark "*"),
    role .name identifier, callSignature g,
    firstOf [seq [functionBody g, trailingComments], semicolon false]])

def functionExpression (g : Grammar) : Parser :=
  nodeBy (fun nodes => if hasToken "*" nodes then .generatorExpression else .functionExpression)
    (seq [functionHead, optional (role .name identifier), callSignature g, functionBody g])

/-- What an arrow leads to: a block or an expression. -/
def arrowBody (g : Grammar) (allowIn typedArrow : Bool) : Parser :=
  role .body (fun cursor =>
    if startsWithAny ['{'] (ahead cursor) then g.call .block cursor
    else g.call (.assignment allowIn typedArrow) cursor)

def arrowFunction (g : Grammar) (allowIn typedArrow : Bool) : Parser :=
  let signature := seq [optional (typeParameters g), parameters g,
    if typedArrow then optional (resultType g) else nothing]
  node .arrowFunction (seq [
    firstOf [seq [word "async", sameLine (firstOf [signature, identifier]), mark "=>"],
      seq [firstOf [signature, identifier], mark "=>"]],
    arrowBody g allowIn typedArrow])

/-! ## Classes -/

def extendsClause (g : Grammar) : Parser :=
  node .extendsClause (seq [word "extends", separated g.rounds
    (seq [role .value (g.call .leftHand), optional (typeArguments g)]) (mark ",")])

def implementsClause (g : Grammar) : Parser :=
  node .implementsClause (seq [word "implements", separated g.rounds (g.call .type) (mark ",")])

/-- What a class is based on. -/
def classHeritage (g : Grammar) : Parser :=
  node .classHeritage (firstOf [
    seq [extendsClause g, optional (implementsClause g)], implementsClause g])

/-- Words that may stand before a class member. -/
def memberModifiers : List String :=
  ["public", "private", "protected", "static", "abstract", "readonly", "override", "declare",
   "async", "accessor", "get", "set"]

/-- A method, with or without body, or a field. -/
def memberKind (nodes : Forest) : Kind :=
  if hasBody nodes then .methodDefinition
  else if nodes.any (·.kind == .parameters) then .methodSignature
  else .fieldDefinition

/-- A class member that has a name. -/
def namedMember (g : Grammar) : Parser :=
  nodeBy memberKind (seq [
    many g.rounds (decorator g),
    many g.rounds (modifierWord memberModifiers),
    optional (mark "*"),
    role .name (propertyName g),
    optional (firstOf [mark "?", markBut "!" ['=']]),
    firstOf [
      seq [callSignature g, optional (functionBody g)],
      seq [optional (annotatedType g),
        optional (seq [markBut "=" ['=', '>'], role .value (g.call (.assignment true true))])]]])

/-- Statements run when the class is made. -/
def staticBlock (g : Grammar) : Parser :=
  node .statement (seq [word "static", role .body (g.call .block)])

/-- The end of a class member: a semicolon or comma, a line break, or the closing brace; a body
needs none. -/
def classMemberEnd (nodes : Forest) : Parser := fun cursor =>
  let bodied := nodes.any fun n => n.kind == .methodDefinition || n.kind == .statement
  if bodied then optional (mark ";") cursor
  else firstOf [mark ",", semicolon false] cursor

/-- One class member with its end. -/
def classMember (g : Grammar) : Parser := fun cursor =>
  match firstOf [mark ";", staticBlock g, indexSignature g, namedMember g] cursor with
  | none => none
  | some (nodes, next) =>
    if hasToken ";" nodes then some (nodes, next)
    else match classMemberEnd nodes next with
      | none => none
      | some (stop, after) => some (nodes ++ stop, after)

def classBody (g : Grammar) : Parser :=
  node .classBody (seq [mark "\x7b", many g.rounds (classMember g), mark "\x7d"])

/-- The part of a class from its keyword on; `nameRule` reads its name. -/
def classTail (g : Grammar) (nameRule : Parser) : Parser :=
  seq [word "class", nameRule, optional (typeParameters g), optional (classHeritage g),
    role .body (classBody g)]

/-- The name of a class, which is never the word that starts its heritage. -/
def className : Parser := fun cursor =>
  if ["extends", "implements"].contains (wordAhead cursor) then none
  else role .name (leaf .name nameLength) cursor

def classDeclaration (g : Grammar) : Parser :=
  nodeBy (fun nodes => if hasToken "abstract" nodes then .abstractClassDeclaration
      else .classDeclaration)
    (seq [many g.rounds (decorator g), optional (word "abstract"), classTail g className,
      trailingComments])

def classExpression (g : Grammar) : Parser :=
  node .classExpression (seq [many g.rounds (decorator g), classTail g (optional className)])

end RenderProbe.Syntax
