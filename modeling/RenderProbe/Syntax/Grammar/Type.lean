import RenderProbe.Syntax.Parser

/-!
# Types

Type annotations, type parameters and arguments, and the forms of types. No analysis looks inside a
type, so all of them share the one kind `type`.
-/

namespace RenderProbe.Syntax

def typeNode (p : Parser) : Parser :=
  node .type p

/-- A type after a colon. -/
def annotatedType (g : Grammar) : Parser :=
  typeNode (seq [mark ":", g.call .type])

/-- The types between angle brackets after a name. -/
def typeArguments (g : Grammar) : Parser :=
  typeNode (seq [mark "<", listUntil g.rounds (g.call .type) ">"])

/-- One type parameter: modifiers, a name, a bound and a default. -/
def typeParameter (g : Grammar) : Parser :=
  let modifier := firstOf (["const", "in", "out"].map fun keyword => fun cursor =>
    if (afterWord cursor).head?.any isNameStart
      && !startsWithWord "extends".toList (afterWord cursor)
    then word keyword cursor else none)
  typeNode (seq [many 3 modifier, leaf .name nameLength,
    optional (seq [word "extends", g.call .type]),
    optional (seq [markBut "=" ['>', '='], g.call .type])])

def typeParameters (g : Grammar) : Parser :=
  typeNode (fun cursor =>
    if (ahead cursor).take 2 == ['<', '>'] then none
    else seq [mark "<", listUntil g.rounds (typeParameter g) ">"] cursor)

/-! ## Parameters -/

/-- Whether a word before a parameter or member is a modifier of it, by what follows the word. -/
def modifies (following : List Char) : Bool :=
  following.head?.any fun c =>
    isNameStart c || ['{', '[', '#', '"', '\'', '*'].contains c || c.isDigit

/-- One of the given words, when it modifies what follows. -/
def modifierWord (words : List String) : Parser := fun cursor =>
  let found := wordAhead cursor
  if words.contains found && modifies (afterWord cursor) then word found cursor else none

/-- A decorator: an at sign and a reference or call. -/
def decorator (g : Grammar) : Parser :=
  node .decorator (seq [mark "@", g.call .leftHand])

def defaultValue (g : Grammar) : Parser :=
  seq [markBut "=" ['=', '>'], g.call (.assignment true true)]

def parameter (g : Grammar) : Parser :=
  node .pattern (seq [many g.rounds (decorator g),
    many 4 (modifierWord ["public", "private", "protected", "readonly", "override"]),
    optional (mark "..."),
    firstOf [g.call .bindingPattern, word "this"],
    optional (mark "?"),
    optional (annotatedType g),
    optional (defaultValue g)])

def parameters (g : Grammar) : Parser :=
  node .parameters (seq [mark "(", listUntil g.rounds (parameter g) ")"])

/-- The subject of what a result says: an argument, or the object itself. -/
def resultSubject : Parser :=
  firstOf [leaf .name nameLength, word "this"]

/-- What a result says of its subject. -/
def resultClaim (g : Grammar) : Parser :=
  seq [resultSubject, sameLine (word "is"), g.call .type]

/-- The result of a function: a type, or what it says of an argument. -/
def result (g : Grammar) : Parser :=
  firstOf [resultClaim g, seq [word "asserts", resultClaim g],
    seq [word "asserts", sameLine resultSubject], g.call .type]

/-- The result of a function after a colon. -/
def resultType (g : Grammar) : Parser :=
  typeNode (seq [mark ":", result g])

/-- Type parameters, parameters and result type. -/
def callSignature (g : Grammar) : Parser :=
  seq [optional (typeParameters g), parameters g, optional (resultType g)]

/-! ## Members of object types -/

/-- A name of a property: a word, a string, a number, a private name or an expression in
brackets. -/
def propertyName (g : Grammar) : Parser :=
  firstOf [anyName, stringLiteral, leaf .expression numberLength, leaf .name privateNameLength,
    node .expression (seq [mark "[", g.call (.assignment true true), mark "]"])]

def mappedMember (g : Grammar) : Parser :=
  let sign := optional (firstOf [mark "+", mark "-"])
  typeNode (seq [
    optional (seq [sign, word "readonly"]),
    mark "[", leaf .name nameLength, word "in", g.call .type,
    optional (seq [word "as", g.call .type]), mark "]",
    optional (seq [sign, mark "?"]),
    optional (annotatedType g)])

/-- A member for all keys of a type. -/
def indexSignature (g : Grammar) : Parser :=
  typeNode (seq [
    many 3 (modifierWord ["readonly", "static"]),
    mark "[", leaf .name nameLength, mark ":", g.call .type, mark "]", annotatedType g])

/-- A property or method of an object type. -/
def propertySignature (g : Grammar) : Parser :=
  typeNode (seq [
    many 3 (modifierWord ["readonly", "get", "set", "public", "private", "protected", "static"]),
    propertyName g, optional (mark "?"),
    firstOf [callSignature g, optional (annotatedType g)]])

/-- A member of an object type. -/
def typeMember (g : Grammar) : Parser :=
  firstOf [
    whenAhead (startsWithAny ['[', 'r', '+', '-']) (firstOf [mappedMember g, indexSignature g]),
    whenAhead (startsWithAny ['(', '<']) (typeNode (callSignature g)),
    typeNode (seq [word "new", callSignature g]),
    propertySignature g]

/-- The end of a member: a semicolon, a comma, a line break or the closing brace. -/
def memberEnd : Parser :=
  firstOf [mark ";", mark ",", fun cursor =>
    let trivia := cursor.skipTrivia
    if trivia.lineBreak || trivia.next.rest.head? == some '}' then some ([], cursor) else none]

/-- The members of an object type between braces. -/
def objectType (g : Grammar) : Parser :=
  typeNode (seq [mark "\x7b", many g.rounds (seq [typeMember g, memberEnd]), mark "\x7d"])

/-! ## Forms of types -/

/-- An element of a tuple type. -/
def tupleElement (g : Grammar) : Parser :=
  firstOf [
    seq [optional (mark "..."), anyName, optional (mark "?"), annotatedType g],
    seq [optional (mark "..."), g.call .type, optional (mark "?")]]

/-- The text and substitutions of a template, with `part` between the braces. -/
def templateBody (rounds : Nat) (part : Parser) : Parser :=
  seq [leaf .token (markLength "`"),
    many rounds (firstOf [rawLeaf .token (templateChunk 0),
      seq [rawLeaf .token (markLength "$\x7b"), part, mark "\x7d"]]),
    rawLeaf .token (markLength "`")]

def typeReference (g : Grammar) : Parser :=
  seq [anyName, many g.rounds (seq [markBut "." ['.'], anyName]),
    optional (sameLine (typeArguments g))]

/-- The type of a value. -/
def typeQuery (g : Grammar) : Parser :=
  seq [word "typeof",
    firstOf [seq [word "import", mark "(", stringLiteral, mark ")"], anyName],
    many g.rounds
      (firstOf [seq [markBut "." ['.'], firstOf [anyName, leaf .name privateNameLength]]]),
    optional (sameLine (typeArguments g))]

def importType (g : Grammar) : Parser :=
  seq [word "import", mark "(", g.call .type, mark ")",
    many g.rounds (seq [mark ".", anyName]), optional (typeArguments g)]

def functionType (g : Grammar) : Parser :=
  seq [optional (typeParameters g), parameters g, mark "=>", result g]

/-- A type without operators around it. -/
def primaryType (g : Grammar) : Parser := fun cursor =>
  match ahead cursor with
  | '(' :: _ => seq [mark "(", g.call .type, mark ")"] cursor
  | '{' :: _ => objectType g cursor
  | '[' :: _ => seq [mark "[", listUntil g.rounds (tupleElement g) "]"] cursor
  | '`' :: _ => templateBody g.rounds (g.call .type) cursor
  | '-' :: _ => seq [mark "-", leaf .expression numberLength] cursor
  | _ => match wordAhead cursor with
    | "typeof" => typeQuery g cursor
    | "import" => importType g cursor
    | "" => firstOf [stringLiteral, leaf .expression numberLength] cursor
    | "extends" | "function" | "class" | "const" | "if" | "return" | "export" => none
    | _ => typeReference g cursor

/-- A type with array marks and element accesses after it. -/
def indexedType (g : Grammar) : Parser :=
  seq [primaryType g, many g.rounds (sameLine (firstOf [
    seq [mark "[", mark "]"], seq [mark "[", g.call .type, mark "]"]]))]

/-- A type with keywords before it. -/
def prefixedType (g : Grammar) : Nat → Parser
  | 0 => fun _ => none
  | rounds + 1 => fun cursor =>
    match wordAhead cursor with
    | "keyof" | "unique" | "readonly" =>
      firstOf [seq [word (wordAhead cursor), prefixedType g rounds], indexedType g] cursor
    | "infer" =>
      firstOf [
        seq [word "infer", leaf .name nameLength,
          optional (seq [word "extends", prefixedType g rounds])],
        indexedType g] cursor
    | _ => indexedType g cursor

/-- Types of which all hold. -/
def intersectionType (g : Grammar) : Parser :=
  let amp := markBut "&" ['&', '=']
  seq [optional amp, separated g.rounds (prefixedType g g.rounds) amp]

/-- Types of which one holds. -/
def unionType (g : Grammar) : Parser :=
  let bar := markBut "|" ['|', '=']
  seq [optional bar, separated g.rounds (intersectionType g) bar]

/-- Whether a function type or constructor type may stand at the unread characters. -/
def mayBeFunctionType (rest : List Char) : Bool :=
  startsWithAny ['(', '<'] rest || 0 < keywordLength "new" rest
    || 0 < keywordLength "abstract" rest

def typeRule (g : Grammar) : Parser :=
  typeNode (firstOf [
    whenAhead mayBeFunctionType (seq [optional (word "abstract"), optional (word "new"),
      functionType g]),
    seq [unionType g, optional (seq [word "extends", unionOrFunction g,
      mark "?", g.call .type, mark ":", g.call .type])]])
where
  /-- The type a conditional type tests against. -/
  unionOrFunction (g : Grammar) : Parser :=
    firstOf [
      whenAhead mayBeFunctionType (seq [optional (word "abstract"), optional (word "new"),
        functionType g]),
      unionType g]

end RenderProbe.Syntax
