import RenderProbe.Syntax.Grammar.Function
import RenderProbe.Syntax.Grammar.Markup

/-!
# Expressions

Operands, member accesses and calls, operators by strength, conditional and assigned expressions.
-/

namespace RenderProbe.Syntax

/-! ## Operands -/

def parenthesized (g : Grammar) : Parser :=
  node .parenthesized (seq [mark "(", g.call (.expression true), optional (annotatedType g),
    mark ")"])

def spreadOrValue (g : Grammar) : Parser :=
  seq [optional (mark "..."), g.call (.assignment true true)]

def callArguments (g : Grammar) : Parser :=
  node .arguments (seq [mark "(", listUntil g.rounds (spreadOrValue g) ")"])

def arrayLiteral (g : Grammar) : Parser :=
  node .expression (seq [mark "[", listUntil g.rounds (firstOf [spreadOrValue g, hole]) "]"])

def objectMethod (g : Grammar) : Parser :=
  node .methodDefinition (seq [many 4 (modifierWord ["async", "get", "set"]), optional (mark "*"),
    role .name (propertyName g), callSignature g, functionBody g])

def objectProperty (g : Grammar) : Parser :=
  firstOf [
    seq [mark "...", g.call (.assignment true true)],
    node .expression (seq [role .name (propertyName g), mark ":",
      role .value (g.call (.assignment true true))]),
    objectMethod g,
    seq [identifier, optional (defaultValue g)]]

def objectLiteral (g : Grammar) : Parser :=
  node .expression (seq [mark "\x7b", listUntil g.rounds (objectProperty g) "\x7d"])

def templateLiteral (g : Grammar) : Parser :=
  node .expression (templateBody g.rounds (g.call (.expression true)))

/-- The value asserted to have a type in front of it. -/
def prefixCast (g : Grammar) : Parser :=
  node .expression (seq [typeArguments g, g.call (.operand true)])

/-- What an opening angle bracket starts: a generic arrow function, an element or a cast. -/
def angled (g : Grammar) (typedArrow : Bool) : Parser :=
  firstOf [arrowFunction g true typedArrow, if g.markup then g.call .element else prefixCast g]

/-- A name, unless an arrow makes it the parameter of a function. -/
def nameOrArrow (g : Grammar) (typedArrow : Bool) : Parser := fun cursor =>
  match identifier cursor with
  | none => none
  | some result =>
    if "=>".toList.isPrefixOf (ahead result.2) then
      arrowFunction g true typedArrow cursor
    else some result

def newExpression (g : Grammar) : Parser :=
  let access := firstOf [
    seq [markBut "." ['.'], firstOf [anyName, leaf .name privateNameLength]],
    seq [mark "[", g.call (.expression true), mark "]"]]
  let constructor := fun cursor => match ahead cursor with
    | '(' :: _ => parenthesized g cursor
    | _ => match wordAhead cursor with
      | "new" => g.call .leftHand cursor
      | "class" => classExpression g cursor
      | "function" => functionExpression g cursor
      | "this" | "super" | "import" => anyName cursor
      | _ => identifier cursor
  node .expression (seq [word "new",
    firstOf [
      seq [mark ".", word "target"],
      seq [constructor, many g.rounds access, optional (sameLine (typeArguments g)),
        optional (callArguments g)]]])

/-- An operand without anything after it. -/
def primary (g : Grammar) (typedArrow : Bool) : Parser := fun cursor =>
  match ahead cursor with
  | '(' :: _ => firstOf [arrowFunction g true typedArrow, parenthesized g] cursor
  | '[' :: _ => arrayLiteral g cursor
  | '{' :: _ => objectLiteral g cursor
  | '<' :: _ => angled g typedArrow cursor
  | '`' :: _ => templateLiteral g cursor
  | '/' :: _ => leaf .expression patternLength cursor
  | '#' :: _ => leaf .name privateNameLength cursor
  | '@' :: _ => classExpression g cursor
  | '"' :: _ | '\'' :: _ => stringLiteral cursor
  | _ => match wordAhead cursor with
    | "" => leaf .expression numberLength cursor
    | "function" => functionExpression g cursor
    | "class" => classExpression g cursor
    | "new" => newExpression g cursor
    | "this" | "super" | "null" | "true" | "false" | "undefined" =>
      leaf .expression wordLength cursor
    | "import" =>
      if startsWithAny ['(', '.'] (afterWord cursor) then leaf .expression wordLength cursor
      else none
    | "async" => firstOf [functionExpression g, arrowFunction g true typedArrow,
        nameOrArrow g typedArrow] cursor
    | _ => nameOrArrow g typedArrow cursor

/-! ## Member accesses and calls -/

/-- Whether type arguments that no call follows end an expression there. -/
def endsInstantiation (rest : List Char) : Bool :=
  rest.isEmpty || startsWithAny [';', ')', ',', ']', ':', '}', '.', '?', '=', '&', '|'] rest

/-- An operand that becomes the first child of a node; a parser reads the other children. -/
def grown (operand : Forest) (kind : Kind) (r : Role) (p : Parser) : Parser := fun cursor =>
  match p cursor with
  | none => none
  | some (more, stop) => some (grow kind r more stop operand, stop)

/-- One access or call after an operand, which becomes its first child. -/
def access (g : Grammar) (operand : Forest) : Parser := fun cursor =>
  let trivia := cursor.skipTrivia
  let propertyRule := role .property (firstOf [anyName, leaf .name privateNameLength])
  match trivia.next.rest with
  | '?' :: '.' :: after => match after with
    | '(' :: _ => grown operand .call .callee (seq [mark "?.", callArguments g]) cursor
    | '[' :: _ => grown operand .expression .plain
        (seq [mark "?.", mark "[", g.call (.expression true), mark "]"]) cursor
    | '<' :: _ => grown operand .call .callee
        (seq [mark "?.", typeArguments g, callArguments g]) cursor
    | _ =>
      if after.head?.any Char.isDigit then none
      else grown operand .member .plain (seq [mark "?.", propertyRule]) cursor
  | '.' :: after =>
    if after.head? == some '.' then none
    else grown operand .member .plain (seq [mark ".", propertyRule]) cursor
  | '[' :: _ => grown operand .expression .plain
      (seq [mark "[", g.call (.expression true), mark "]"]) cursor
  | '(' :: _ => grown operand .call .callee (callArguments g) cursor
  | '`' :: _ => grown operand .call .callee (templateLiteral g) cursor
  | '!' :: after =>
    if trivia.lineBreak || after.head? == some '=' then none
    else grown operand .nonNull .plain (mark "!") cursor
  | '+' :: '+' :: _ =>
    if trivia.lineBreak then none else grown operand .expression .plain (mark "++") cursor
  | '-' :: '-' :: _ =>
    if trivia.lineBreak then none else grown operand .expression .plain (mark "--") cursor
  | '<' :: _ => match typeArguments g cursor with
    | none => none
    | some (_, stop) =>
      if startsWithAny ['('] (ahead stop) then
        grown operand .call .callee (seq [typeArguments g, callArguments g]) cursor
      else if startsWithAny ['`'] (ahead stop) then
        grown operand .call .callee (seq [typeArguments g, templateLiteral g]) cursor
      else if endsInstantiation (ahead stop) then
        grown operand .expression .plain (typeArguments g) cursor
      else none
  | _ => none

/-- Accesses and calls as long as they follow one another. -/
def accesses (g : Grammar) : Nat → Forest → Parser
  | 0, operand => fun cursor => some (operand, cursor)
  | rounds + 1, operand => fun cursor => match access g operand cursor with
    | none => some (operand, cursor)
    | some (grown, next) => accesses g rounds grown next

/-- An operand with its accesses and calls; an arrow function has none. -/
def leftHandOf (g : Grammar) (typedArrow : Bool) : Parser := fun cursor =>
  match primary g typedArrow cursor with
  | none => none
  | some (operand, next) =>
    if operand.any (·.kind == .arrowFunction) then some (operand, next)
    else accesses g g.rounds operand next

/-- An operand with its accesses and calls. -/
def leftHandRule (g : Grammar) : Parser :=
  leftHandOf g true

/-! ## Operators -/

/-- An operand with the operators before it. -/
def operandRule (g : Grammar) (typedArrow : Bool) : Parser := fun cursor =>
  let unary (p : Parser) : Parser := node .expression (seq [p, g.call (.operand typedArrow)])
  match ahead cursor with
  | '!' :: _ => unary (mark "!") cursor
  | '~' :: _ => unary (mark "~") cursor
  | '+' :: '+' :: _ => unary (mark "++") cursor
  | '-' :: '-' :: _ => unary (mark "--") cursor
  | '+' :: _ => unary (mark "+") cursor
  | '-' :: _ => unary (mark "-") cursor
  | _ => match wordAhead cursor with
    | "typeof" => unary (word "typeof") cursor
    | "void" => unary (word "void") cursor
    | "delete" => unary (word "delete") cursor
    | "await" => firstOf [unary (word "await"), leftHandOf g typedArrow] cursor
    | _ => leftHandOf g typedArrow cursor

/-- A binary operator: its text, its strength, and the characters that may not follow it. -/
structure BinaryOperator where
  text : String
  strength : Nat
  notBefore : List Char
  isWord : Bool

/-- The binary operators, longer marks before their beginnings. -/
def binaryOperators : List BinaryOperator :=
  [⟨"??", 1, ['='], false⟩, ⟨"||", 2, ['='], false⟩, ⟨"&&", 3, ['='], false⟩,
   ⟨"|", 4, ['=', '|'], false⟩, ⟨"^", 5, ['='], false⟩, ⟨"&", 6, ['=', '&'], false⟩,
   ⟨"===", 7, [], false⟩, ⟨"!==", 7, [], false⟩, ⟨"==", 7, [], false⟩, ⟨"!=", 7, [], false⟩,
   ⟨">>>", 9, ['='], false⟩, ⟨">>", 9, ['=', '>'], false⟩, ⟨"<<", 9, ['='], false⟩,
   ⟨"<=", 8, [], false⟩, ⟨">=", 8, [], false⟩, ⟨"<", 8, ['=', '<'], false⟩,
   ⟨">", 8, ['=', '>'], false⟩, ⟨"instanceof", 8, [], true⟩, ⟨"in", 8, [], true⟩,
   ⟨"as", 8, [], true⟩, ⟨"satisfies", 8, [], true⟩, ⟨"+", 10, ['=', '+'], false⟩,
   ⟨"-", 10, ['=', '-'], false⟩, ⟨"**", 12, ['='], false⟩, ⟨"*", 11, ['=', '*'], false⟩,
   ⟨"/", 11, ['='], false⟩, ⟨"%", 11, ['='], false⟩]

/-- How many characters an operator takes at the front. -/
def BinaryOperator.length (operator : BinaryOperator) (rest : List Char) : Nat :=
  if operator.isWord then keywordLength operator.text rest
  else markNotBefore operator.text operator.notBefore rest

/-- The binary operator at the next token. -/
def operatorAhead (allowIn : Bool) (cursor : Cursor) : Option BinaryOperator :=
  let trivia := cursor.skipTrivia
  match binaryOperators.find? fun operator => 0 < operator.length trivia.next.rest with
  | none => none
  | some operator =>
    if operator.text == "in" && !allowIn then none
    else if trivia.lineBreak && (operator.text == "as" || operator.text == "satisfies") then none
    else some operator

/-- A type after `as` or `satisfies`; `const` stands for the most exact one. -/
def assertedType (g : Grammar) : Parser :=
  firstOf [word "const", g.call .type]

/-- The operators of at least a strength that follow an operand. -/
def operatorsAfter (g : Grammar) (strength : Nat) (allowIn typedArrow : Bool) :
    Nat → Forest → Parser
  | 0, operand => fun cursor => some (operand, cursor)
  | rounds + 1, operand => fun cursor => match operatorAhead allowIn cursor with
    | none => some (operand, cursor)
    | some operator =>
      if operator.strength < strength then some (operand, cursor)
      else
        let sign := role .operator (leaf .token operator.length)
        let (kind, right) :=
          if operator.text == "as" then (Kind.asExpression, assertedType g)
          else if operator.text == "satisfies" then (Kind.satisfiesExpression, assertedType g)
          else
            let stronger := if operator.text == "**" then operator.strength
              else operator.strength + 1
            (Kind.binary, role .right (g.call (.operators stronger allowIn typedArrow)))
        let firstRole := if kind == .binary then Role.left else Role.plain
        match seq [sign, right] cursor with
        | none => none
        | some (more, stop) =>
          operatorsAfter g strength allowIn typedArrow rounds
            (grow kind firstRole more stop operand) stop

/-- An operand and the operators of at least a strength after it. -/
def operatorsRule (g : Grammar) (strength : Nat) (allowIn typedArrow : Bool) : Parser :=
  fun cursor => match g.call (.operand typedArrow) cursor with
  | none => none
  | some (operand, next) =>
    if operand.any (·.kind == .arrowFunction) then some (operand, next)
    else operatorsAfter g strength allowIn typedArrow g.rounds operand next

/-! ## Conditional and assigned expressions -/

/-- The two branches of a conditional expression. The first branch may start like an arrow function
with a result type; when no second branch is left over that way, it is read without one. -/
def ternaryBranches (g : Grammar) (allowIn typedArrow : Bool) : Parser := fun cursor =>
  let rest : Parser := seq [mark ":", role .alternative (g.call (.assignment allowIn typedArrow))]
  match seq [mark "?", role .consequence (g.call (.assignment true true))] cursor with
  | none => none
  | some (nodes, next) =>
    if startsWithAny [':'] (ahead next) then
      match rest next with
      | none => none
      | some (others, stop) => some (nodes ++ others, stop)
    else
      seq [mark "?", role .consequence (g.call (.assignment true false)), rest] cursor

/-- Whether a question mark of a conditional expression stands at the unread characters. -/
def startsTernary : List Char → Bool
  | '?' :: '.' :: c :: _ => c.isDigit
  | '?' :: '.' :: _ => false
  | '?' :: '?' :: _ => false
  | '?' :: _ => true
  | _ => false

def assignmentOperators : List String :=
  ["=", "+=", "-=", "*=", "/=", "%=", "^=", "&=", "|=", ">>=", ">>>=", "<<=", "**=", "&&=", "||=",
   "??="]

/-- How many characters an assignment operator takes at the front. -/
def assignmentLength (rest : List Char) : Nat :=
  match assignmentOperators.find? fun operator =>
      0 < markNotBefore operator (if operator == "=" then ['=', '>'] else []) rest with
  | some operator => operator.length
  | none => 0

/-- A node that a value may be assigned to. -/
def isAssignable (n : Node) : Bool :=
  [.identifier, .member, .expression, .parenthesized, .nonNull, .asExpression,
    .satisfiesExpression].contains n.kind
    && !(n.kind == .expression && n.children.isEmpty)

/-- A value handed out by a generator. -/
def yieldExpression (g : Grammar) (allowIn : Bool) : Parser :=
  node .expression (seq [word "yield",
    firstOf [seq [sameLine (mark "*"), g.call (.assignment allowIn true)],
      optional (sameLine (g.call (.assignment allowIn true)))]])

/-- An expression without comma. -/
def assignmentRule (g : Grammar) (allowIn typedArrow : Bool) : Parser := fun cursor =>
  if wordAhead cursor == "yield" then yieldExpression g allowIn cursor
  else match g.call (.operators 1 allowIn typedArrow) cursor with
    | none => none
    | some (operand, next) =>
      if operand.any (·.kind == .arrowFunction) then some (operand, next)
      else if startsTernary (ahead next) then
        match ternaryBranches g allowIn typedArrow next with
        | none => none
        | some (more, stop) => some (grow .ternary .plain more stop operand, stop)
      else if 0 < assignmentLength (ahead next) && operand.getLast?.any isAssignable then
        match seq [leaf .token assignmentLength,
            role .right (g.call (.assignment allowIn typedArrow))] next with
        | none => none
        | some (more, stop) => some (grow .expression .left more stop operand, stop)
      else some (operand, next)

def expressionRule (g : Grammar) (allowIn : Bool) : Parser := fun cursor =>
  match g.call (.assignment allowIn true) cursor with
  | none => none
  | some (first, next) =>
    match many g.rounds (seq [mark ",", g.call (.assignment allowIn true)]) next with
    | none => none
    | some ([], stop) => some (first, stop)
    | some (more, stop) => some (grow .expression .plain more stop first, stop)

end RenderProbe.Syntax
