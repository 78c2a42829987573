import RenderProbe.Syntax.Grammar.Expression

/-!
# Statements and declarations
-/

namespace RenderProbe.Syntax

def statementNode (p : Parser) : Parser :=
  node .statement p

def clauseNode (p : Parser) : Parser :=
  node .clause p

/-- Statements between braces. -/
def blockRule (g : Grammar) : Parser :=
  node .block (seq [mark "\x7b", many g.rounds (g.call .statement), mark "\x7d"])

/-! ## Variables -/

def declarator (g : Grammar) (allowIn : Bool) : Parser :=
  node .declarator (seq [
    role .name (g.call .bindingPattern),
    optional (markBut "!" ['=']),
    optional (annotatedType g),
    optional (seq [markBut "=" ['=', '>'], role .value (g.call (.assignment allowIn true))])])

/-- The keyword that declares variables. -/
def variableKeyword : Parser :=
  firstOf [word "const", word "let", word "var"]

/-- Declared variables, without the end of their statement. -/
def declarators (g : Grammar) (allowIn : Bool) : Parser :=
  seq [variableKeyword, separated g.rounds (declarator g allowIn) (mark ",")]

def variableDeclaration (g : Grammar) : Parser :=
  node .variableDeclaration (seq [declarators g true, semicolon true])

/-! ## Type-level declarations -/

def typeAlias (g : Grammar) : Parser :=
  statementNode (seq [word "type", leaf .name nameLength, optional (typeParameters g),
    markBut "=" ['=', '>'], g.call .type, semicolon false])

def interfaceDeclaration (g : Grammar) : Parser :=
  statementNode (seq [word "interface", leaf .name nameLength, optional (typeParameters g),
    optional (seq [word "extends", separated g.rounds (g.call .type) (mark ",")]),
    objectType g, trailingComments])

def enumDeclaration (g : Grammar) : Parser :=
  let member := seq [propertyName g,
    optional (seq [mark "=", g.call (.assignment true true)])]
  statementNode (seq [optional (word "const"), word "enum", identifier,
    mark "\x7b", listUntil g.rounds member "\x7d"])

def moduleBlock (g : Grammar) : Parser :=
  statementNode (seq [firstOf [word "namespace", word "module"],
    firstOf [sameLine stringLiteral,
      sameLine (separated g.rounds identifier (mark "."))],
    optional (g.call .block), optional (semicolon false)])

/-- A declaration of something that exists elsewhere. -/
def ambientDeclaration (g : Grammar) (declaration : Parser) : Parser :=
  statementNode (seq [word "declare", firstOf [
    seq [word "global", g.call .block],
    declaration]])

/-- A second name for something in a namespace. -/
def importAlias (g : Grammar) : Parser :=
  statementNode (seq [word "import", identifier, markBut "=" ['=', '>'],
    separated g.rounds identifier (mark "."), semicolon false])

/-- A declaration, by its first word. -/
def declarationBy (g : Grammar) : Nat → Parser
  | 0 => fun _ => none
  | rounds + 1 => fun cursor => match wordAhead cursor with
    | "function" => functionDeclaration g cursor
    | "async" => functionDeclaration g cursor
    | "class" => classDeclaration g cursor
    | "abstract" => classDeclaration g cursor
    | "const" => firstOf [enumDeclaration g, variableDeclaration g] cursor
    | "let" | "var" => variableDeclaration g cursor
    | "enum" => enumDeclaration g cursor
    | "type" => typeAlias g cursor
    | "interface" => interfaceDeclaration g cursor
    | "namespace" | "module" => moduleBlock g cursor
    | "declare" => ambientDeclaration g (declarationBy g rounds) cursor
    | "import" => importAlias g cursor
    | _ => whenAhead (startsWithAny ['@']) (classDeclaration g) cursor

def declaration (g : Grammar) : Parser :=
  declarationBy g g.rounds

/-! ## Control flow -/

def ifStatement (g : Grammar) : Parser :=
  statementNode (seq [word "if", parenthesized g, g.call .statement,
    optional (clauseNode (seq [word "else", g.call .statement]))])

/-- A loop with initialisation, condition and step. -/
def forStatement (g : Grammar) : Parser :=
  statementNode (seq [word "for", mark "(",
    optional (firstOf [node .variableDeclaration (declarators g false),
      g.call (.expression false)]),
    mark ";", optional (g.call (.expression true)), mark ";",
    optional (g.call (.expression true)), mark ")", g.call .statement])

/-- A loop over the elements or keys of a value. -/
def forEachStatement (g : Grammar) : Parser :=
  statementNode (seq [word "for", optional (word "await"), mark "(",
    firstOf [seq [variableKeyword, g.call .bindingPattern], g.call .leftHand],
    firstOf [word "of", word "in"], g.call (.expression true), mark ")", g.call .statement])

def whileStatement (g : Grammar) : Parser :=
  statementNode (seq [word "while", parenthesized g, g.call .statement])

/-- A loop with its condition last. -/
def doStatement (g : Grammar) : Parser :=
  statementNode (seq [word "do", g.call .statement, word "while", parenthesized g,
    optional (semicolon false)])

/-- A statement with handlers for its failures. -/
def tryStatement (g : Grammar) : Parser :=
  let handler := clauseNode (seq [word "catch",
    optional (seq [mark "(", g.call .bindingPattern, optional (annotatedType g), mark ")"]),
    g.call .block])
  let finalizer := clauseNode (seq [word "finally", g.call .block])
  statementNode (seq [word "try", g.call .block,
    firstOf [seq [handler, optional finalizer], finalizer]])

/-- A choice by value. -/
def switchStatement (g : Grammar) : Parser :=
  let label := firstOf [seq [word "case", g.call (.expression true), mark ":"],
    seq [word "default", mark ":"]]
  let branch := clauseNode (seq [label, many g.rounds (g.call .statement)])
  statementNode (seq [word "switch", parenthesized g,
    clauseNode (seq [mark "\x7b", many g.rounds branch, mark "\x7d"])])

/-- The value of a statement that a line break may leave without one. -/
def restrictedValue (g : Grammar) : Parser := fun cursor =>
  if endsStatement false cursor.skipTrivia then some ([], cursor)
  else optional (g.call (.expression true)) cursor

def returnStatement (g : Grammar) : Parser :=
  node .returnStatement (seq [word "return", restrictedValue g, semicolon true])

/-- A jump to a label or out of a loop. -/
def jumpStatement (keyword : String) : Parser :=
  statementNode (seq [word keyword, optional (sameLine (leaf .name nameLength)), semicolon false])

def throwStatement (g : Grammar) : Parser :=
  statementNode (seq [word "throw", g.call (.expression true), semicolon true])

def labeledStatement (g : Grammar) : Parser :=
  statementNode (seq [leaf .name nameLength, mark ":", g.call .statement])

def expressionStatement (g : Grammar) : Parser :=
  node .expressionStatement (seq [g.call (.expression true), semicolon true])

/-- A word that is the keyword of a declaration only in the right place. -/
def contextual (g : Grammar) (p : Parser) : Parser :=
  firstOf [p, labeledStatement g, expressionStatement g]

end RenderProbe.Syntax
