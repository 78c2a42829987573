import RenderProbe.Syntax.Node

/-!
# Reading position and trivia

A cursor is the unread part of a source with the byte offset and row it starts at. Blanks and
comments between tokens are skipped before a token is read, so a cursor left behind by a reader
stands right after the last token read.

* `Cursor.skipTrivia` gives the comments before the next token and whether a line breaks there.
* `endsStatement` is the rule by which a line break ends a statement.
-/

namespace RenderProbe.Syntax

/-- A position in a source: what is left to read, and where it starts. -/
structure Cursor where
  rest : List Char
  offset : Nat
  row : Nat
  deriving Inhabited

namespace Cursor

def ofText (text : String) : Cursor :=
  ⟨text.toList, 0, 0⟩

def skip (cursor : Cursor) (c : Char) (rest : List Char) : Cursor :=
  ⟨rest, cursor.offset + c.utf8Size, if c == '\n' then cursor.row + 1 else cursor.row⟩

/-- The span from one cursor to a later one. -/
def spanTo (start stop : Cursor) : Span :=
  ⟨start.offset, stop.offset, start.row, stop.row⟩

def advance : Nat → Cursor → Cursor
  | 0, cursor => cursor
  | n + 1, cursor => match cursor.rest with
    | [] => cursor
    | c :: rest => advance n (cursor.skip c rest)

end Cursor

/-! ## Characters -/

/-- A blank between tokens. -/
def isSpace (c : Char) : Bool :=
  let n := c.toNat
  (9 ≤ n && n ≤ 13) || n == 32 || n == 0xA0 || n == 0x1680 || (0x2000 ≤ n && n ≤ 0x200B)
    || n == 0x2028 || n == 0x2029 || n == 0x202F || n == 0x205F || n == 0x2060 || n == 0x3000
    || n == 0xFEFF

/-- A character that ends a line comment. -/
def isLineEnd (c : Char) : Bool :=
  c == '\n' || c == '\r' || c.toNat == 0x2028 || c.toNat == 0x2029

/-- A character of a name that may start it. -/
def isNameStart (c : Char) : Bool :=
  if c.toNat < 128 then c.isAlpha || c == '_' || c == '$' || c == '\\' else !isSpace c

/-- A character of a name. -/
def isNamePart (c : Char) : Bool :=
  if c.toNat < 128 then c.isAlphanum || c == '_' || c == '$' || c == '\\' else !isSpace c

/-! ## Trivia -/

/-- The part of the trivia a character belongs to; a comment remembers where it started and the
characters read of it, last first. -/
inductive TriviaState where
  | between
  | lineComment (start : Cursor) (read : List Char)
  | blockComment (start : Cursor) (read : List Char)

/-- The comments before the next token, the cursor at that token, and what the blanks held. -/
structure Trivia where
  comments : Forest
  /-- A line feed stands between the tokens, outside comments. -/
  lineBreak : Bool
  /-- The cursor at the next token. -/
  next : Cursor
  /-- The comments on the line of the previous token and the cursor after them, when that line
  ends, or the source does, before the next token. -/
  trailing : Option (Forest × Cursor)
  /-- A block comment is never closed. -/
  unclosed : Bool
  deriving Inhabited

def commentNode (start stop : Cursor) (read : List Char) : Node :=
  ⟨.comment, .plain, start.spanTo stop, String.ofList read.reverse, []⟩

/-- The trivia read so far: comments last first, and the comments of the first line once it
ended. -/
structure TriviaSoFar where
  comments : Forest
  firstLine : Option (Forest × Cursor)
  /-- The end of the last comment, or the start of the trivia. -/
  lastEnd : Cursor

namespace TriviaSoFar

/-- Note the end of the first line, unless it was noted before. -/
def endLine (soFar : TriviaSoFar) : TriviaSoFar :=
  { soFar with firstLine := soFar.firstLine <|> some (soFar.comments.reverse, soFar.lastEnd) }

def addComment (soFar : TriviaSoFar) (start stop : Cursor) (read : List Char) : TriviaSoFar :=
  { soFar with comments := commentNode start stop read :: soFar.comments, lastEnd := stop }

/-- The trivia up to the token at `next`. -/
def finish (soFar : TriviaSoFar) (next : Cursor) (unclosed : Bool) : Trivia :=
  { comments := soFar.comments.reverse
    lineBreak := soFar.firstLine.isSome
    next
    trailing := if next.rest.isEmpty then soFar.endLine.firstLine else soFar.firstLine
    unclosed }

end TriviaSoFar

/-- Read trivia character by character. What the first line holds is noted when it ends, because a
comment on the line of a statement belongs to the statement, and one below does not. -/
def readTrivia (state : TriviaState) (soFar : TriviaSoFar) (cursor : Cursor) :
    List Char → Trivia
  | [] => match state with
    | .between => soFar.finish ⟨[], cursor.offset, cursor.row⟩ false
    | .lineComment start read =>
      (soFar.addComment start ⟨[], cursor.offset, cursor.row⟩ read).finish
        ⟨[], cursor.offset, cursor.row⟩ false
    | .blockComment _ _ => soFar.finish ⟨[], cursor.offset, cursor.row⟩ true
  | c :: rest => match state with
    | .between =>
      if c == '\n' then readTrivia .between soFar.endLine (cursor.skip c rest) rest
      else if isSpace c then readTrivia .between soFar (cursor.skip c rest) rest
      else if c == '/' && rest.head? == some '/' then
        readTrivia (.lineComment cursor [c]) soFar (cursor.skip c rest) rest
      else if c == '/' && rest.head? == some '*' then
        readTrivia (.blockComment cursor [c]) soFar (cursor.skip c rest) rest
      else soFar.finish cursor false
    | .lineComment start read =>
      if c == '\n' then
        readTrivia .between (soFar.addComment start cursor read).endLine (cursor.skip c rest) rest
      else if isLineEnd c then
        readTrivia .between (soFar.addComment start cursor read) (cursor.skip c rest) rest
      else readTrivia (.lineComment start (c :: read)) soFar (cursor.skip c rest) rest
    | .blockComment start read =>
      if c == '/' && read.head? == some '*' && 3 ≤ read.length then
        readTrivia .between (soFar.addComment start (cursor.skip c rest) (c :: read))
          (cursor.skip c rest) rest
      else readTrivia (.blockComment start (c :: read)) soFar (cursor.skip c rest) rest

/-- Skip the blanks and comments before the next token. -/
def Cursor.skipTrivia (cursor : Cursor) : Trivia :=
  readTrivia .between ⟨[], none, cursor⟩ cursor cursor.rest

/-! ## Statement ends -/

/-- Whether a text starts with a word that no letter continues. -/
def startsWithWord (word : List Char) (rest : List Char) : Bool :=
  word.isPrefixOf rest && !((rest.drop word.length).head?.any Char.isAlpha)

/-- Whether the next token leaves a statement open across a line break. A bracket does so only after
a finished expression. -/
def continuesLine (afterExpression : Bool) : List Char → Bool
  | [] => false
  | c :: rest => match c with
    | '`' | ',' | '.' | ';' | '*' | '%' | '>' | '<' | '=' | '?' | '^' | '|' | '&' | '/' | ':' =>
      true
    | '(' | '[' => afterExpression
    | '+' => rest.head? != some '+'
    | '-' => rest.head? != some '-'
    | '!' => rest.head? == some '='
    | 'i' => startsWithWord "n".toList rest || startsWithWord "nstanceof".toList rest
    | _ => false

/-- Whether a statement may end here without a semicolon: before a closing brace, at the end of the
text, or at a line break that the next token does not carry the statement over. -/
def endsStatement (afterExpression : Bool) (trivia : Trivia) : Bool :=
  match trivia.next.rest with
  | [] => true
  | '}' :: _ => true
  | rest => trivia.lineBreak && !continuesLine afterExpression rest

end RenderProbe.Syntax
