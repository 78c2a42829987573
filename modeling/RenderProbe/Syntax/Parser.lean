import RenderProbe.Syntax.Lexeme

/-!
# Parsers

A parser reads a row of sibling nodes at a cursor or fails. The combinators below concatenate rows,
so that a grammar rule is written as the sequence of its parts; comments before a part become
siblings of it.

The grammar is an open recursion: its rules are ordinary functions of a `Grammar`, which holds the
dialect and the way to call a rule from within another one.
-/

namespace RenderProbe.Syntax

/-- A parser of a row of siblings. A row and not a node comes out, since comments stand wherever
they are written, in front of the node that was asked for. -/
abbrev Parser := Cursor → Option (Forest × Cursor)

/-- The rules of the grammar that other rules call. Naming them breaks the circle between rules: a
rule knows the others only through `Grammar.call`, and so every rule is a plain definition. -/
inductive Rule where
  | statement
  /-- An expression, comma sequences included. -/
  | expression (allowIn : Bool)
  /-- An expression without comma; `typedArrow` admits arrow functions with a result type. -/
  | assignment (allowIn typedArrow : Bool)
  /-- A chain of binary operators of at least the given strength. -/
  | operators (strength : Nat) (allowIn typedArrow : Bool)
  /-- An operand with the operators before it. -/
  | operand (typedArrow : Bool)
  /-- An operand with member accesses and calls but no operators before it. -/
  | leftHand
  | type
  | bindingPattern
  | element
  | block

/-- What a grammar rule knows: the dialect, a bound on repetitions, and the other rules. What is
proved of a rule takes the same to be true of `call`. -/
structure Grammar where
  markup : Bool
  rounds : Nat
  call : Rule → Parser

/-! ## Leaves -/

/-- A leaf that stands right at the cursor. A leaf has at least one character, so every leaf that is
read brings a parser forward. -/
def rawLeaf (kind : Kind) (scan : List Char → Nat) : Parser := fun cursor =>
  match scan cursor.rest with
  | 0 => none
  | n =>
    let stop := cursor.advance n
    some ([⟨kind, .plain, cursor.spanTo stop, String.ofList (cursor.rest.take n), []⟩], stop)

def leaf (kind : Kind) (scan : List Char → Nat) : Parser := fun cursor =>
  let trivia := cursor.skipTrivia
  match rawLeaf kind scan trivia.next with
  | none => none
  | some (nodes, stop) => some (trivia.comments ++ nodes, stop)

def mark (text : String) : Parser :=
  leaf .token (markLength text)

/-- A punctuation mark that none of the given characters follows. -/
def markBut (text : String) (following : List Char) : Parser :=
  leaf .token (markNotBefore text following)

def word (keyword : String) : Parser :=
  leaf .token (keywordLength keyword)

def identifier : Parser :=
  leaf .identifier nameLength

def anyName : Parser :=
  leaf .name wordLength

def stringLiteral : Parser :=
  leaf .stringLiteral stringLength

/-! ## Combinators -/

def nothing : Parser := fun cursor => some ([], cursor)

/-- One parser after the other. -/
def seq : List Parser → Parser
  | [] => nothing
  | p :: ps => fun cursor => match p cursor with
    | none => none
    | some (nodes, next) => match seq ps next with
      | none => none
      | some (others, stop) => some (nodes ++ others, stop)

/-- The first parser that succeeds. What was read by one that fails is read again by the next, from
the same cursor. -/
def firstOf : List Parser → Parser
  | [] => fun _ => none
  | p :: ps => fun cursor => match p cursor with
    | none => firstOf ps cursor
    | some result => some result

def optional (p : Parser) : Parser := fun cursor =>
  match p cursor with
  | none => some ([], cursor)
  | some result => some result

/-- A parser as often as it succeeds and reads something, at most `rounds` times. A turn that reads
nothing ends the repetition, so no parser can hold it up. -/
def many : Nat → Parser → Parser
  | 0, _ => nothing
  | rounds + 1, p => fun cursor => match p cursor with
    | none => some ([], cursor)
    | some (nodes, next) =>
      if next.offset ≤ cursor.offset then some ([], cursor)
      else match many rounds p next with
        | none => none
        | some (others, stop) => some (nodes ++ others, stop)

/-- Items with commas between them up to a closing mark; a last comma is allowed. -/
def listUntil : Nat → Parser → String → Parser
  | 0, _, _ => fun _ => none
  | rounds + 1, item, close => firstOf [mark close, fun cursor => match item cursor with
    | none => none
    | some (nodes, next) =>
      match firstOf [seq [mark ",", listUntil rounds item close], mark close] next with
      | none => none
      | some (others, stop) => some (nodes ++ others, stop)]

/-- At least one item, with marks between the items. -/
def separated (rounds : Nat) (item separator : Parser) : Parser :=
  seq [item, many rounds (seq [separator, item])]

/-- A node whose kind depends on its children. The comments in front of it stay outside, as
siblings, so a node starts where its first token does. -/
def nodeBy (kindOf : Forest → Kind) (p : Parser) : Parser := fun cursor =>
  let trivia := cursor.skipTrivia
  match p trivia.next with
  | none => none
  | some (children, stop) =>
    some (trivia.comments
      ++ [⟨kindOf children, .plain, trivia.next.spanTo stop, "", children⟩], stop)

def node (kind : Kind) (p : Parser) : Parser :=
  nodeBy (fun _ => kind) p

/-- The last node read, in a role. -/
def role (r : Role) (p : Parser) : Parser := fun cursor =>
  match p cursor with
  | none => none
  | some (nodes, stop) => some (Forest.withRole r nodes, stop)

/-- A node that starts where the last node of a row does and takes it as its first child. This is
how a call or an operator takes in the operand that was read before it. -/
def grow (kind : Kind) (r : Role) (more : Forest) (stop : Cursor) : Forest → Forest
  | [] => []
  | [first] =>
    [⟨kind, .plain, ⟨first.span.start, stop.offset, first.span.startRow, stop.row⟩, "",
      first.withRole r :: more⟩]
  | comment :: rest => comment :: grow kind r more stop rest

/-! ## Looking ahead -/

/-- The unread characters from the next token on. -/
def ahead (cursor : Cursor) : List Char :=
  cursor.skipTrivia.next.rest

/-- The word at the next token, empty when there is none. -/
def wordAhead (cursor : Cursor) : String :=
  let rest := ahead cursor
  String.ofList (rest.take (wordLength rest))

/-- The characters after the word at the next token. -/
def afterWord (cursor : Cursor) : List Char :=
  let next := cursor.skipTrivia.next
  ahead (next.advance (wordLength next.rest))

/-- A parser that is tried only when the unread characters pass a test. -/
def whenAhead (test : List Char → Bool) (p : Parser) : Parser := fun cursor =>
  if test (ahead cursor) then p cursor else none

/-- A parser that is tried only when the next token is on the same line. Where the language ends a
statement at a line break, this is what ends it. -/
def sameLine (p : Parser) : Parser := fun cursor =>
  if cursor.skipTrivia.lineBreak then none else p cursor

/-- Whether the unread characters start with one of the given ones. -/
def startsWithAny (chars : List Char) (rest : List Char) : Bool :=
  rest.head?.any chars.contains

/-! ## Statement ends -/

/-- The comments that a line break or the end of the source closes off, when the statement may end
before the next token. Without such a place they stay unread, and belong to what follows. -/
def trailingComments : Parser := fun cursor =>
  let trivia := cursor.skipTrivia
  if endsStatement false trivia then trivia.trailing <|> some ([], cursor)
  else some ([], cursor)

/-- The end of a statement: a semicolon, or a place where a line break or a closing brace stands for
one; the comments before that line break belong to the statement. -/
def semicolon (afterExpression : Bool) : Parser := fun cursor =>
  let trivia := cursor.skipTrivia
  match mark ";" cursor with
  | some result => some result
  | none =>
    if endsStatement afterExpression trivia then trivia.trailing <|> some ([], cursor)
    else none

end RenderProbe.Syntax
