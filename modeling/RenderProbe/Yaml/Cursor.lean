import RenderProbe.Fault

/-!
# Places in a YAML text

A cursor is the rest of a text with the number of characters, lines and columns before it. The end
of the text counts as a blank.
-/

namespace RenderProbe.Yaml

/-- Why a text gives no value. -/
inductive Error where
  /-- The text is not in the format, or a node has a type that it cannot have. -/
  | malformed
  /-- A scalar does not spell a value of its type, which the format takes no notice of. -/
  | fault (fault : Fault)
  deriving DecidableEq, Inhabited

/-- A character that ends a line. -/
def isBreak (c : Char) : Bool :=
  c == '\n' || c == '\r' || c.toNat == 0x85 || c.toNat == 0x2028 || c.toNat == 0x2029

def isLineEnd (c : Option Char) : Bool :=
  c.all isBreak

/-- The end of the text or of a line, or a space. -/
def isSpaceEnd (c : Option Char) : Bool :=
  c.all fun c => c == ' ' || isBreak c

/-- The end of the text or of a line, or a space or tab. -/
def isBlankEnd (c : Option Char) : Bool :=
  c.all fun c => c == ' ' || c == '\t' || isBreak c

/-- A letter, a digit, a hyphen or a low line. -/
def isNameChar (c : Char) : Bool :=
  c.isAlphanum || c == '-' || c == '_'

/-- A place in a text. -/
structure Cursor where
  rest : List Char
  index : Nat := 0
  line : Nat := 0
  column : Nat := 0
  deriving DecidableEq, Inhabited

namespace Cursor

def peek (cursor : Cursor) (ahead : Nat := 0) : Option Char :=
  cursor.rest[ahead]?

def isAt (cursor : Cursor) (c : Char) : Bool :=
  cursor.peek == some c

/-- The place after the next character. A carriage return before a line feed ends no line, and a
byte order mark takes no column. -/
def next (cursor : Cursor) : Cursor :=
  match cursor.rest with
  | [] => cursor
  | c :: rest =>
    if isBreak c && !(c == '\r' && rest.head? == some '\n') then
      ⟨rest, cursor.index + 1, cursor.line + 1, 0⟩
    else if c.toNat == 0xFEFF then ⟨rest, cursor.index + 1, cursor.line, cursor.column⟩
    else ⟨rest, cursor.index + 1, cursor.line, cursor.column + 1⟩

def advance (cursor : Cursor) : Nat → Cursor
  | 0 => cursor
  | n + 1 => cursor.next.advance n

def run (cursor : Cursor) (test : Char → Bool) : List Char :=
  cursor.rest.takeWhile test

def skip (cursor : Cursor) (test : Char → Bool) : Cursor :=
  cursor.advance (cursor.run test).length

def skipSpaces (cursor : Cursor) : Cursor :=
  cursor.skip (· == ' ')

/-- The place after a comment, if there is one. -/
def skipComment (cursor : Cursor) : Cursor :=
  if cursor.isAt '#' then cursor.skip fun c => !isBreak c else cursor

/-- The line break at the cursor, as it counts in a scalar, and the place after it. -/
def lineBreak? (cursor : Cursor) : Option (Char × Cursor) :=
  match cursor.rest with
  | '\r' :: '\n' :: _ => some ('\n', cursor.advance 2)
  | c :: _ =>
    if !isBreak c then none
    else if c.toNat == 0x2028 || c.toNat == 0x2029 then some (c, cursor.next)
    else some ('\n', cursor.next)
  | [] => none

/-- Whether three given characters and a blank come next. -/
def isAtMark (cursor : Cursor) (mark : Char) : Bool :=
  cursor.rest.take 3 == [mark, mark, mark] && isBlankEnd (cursor.peek 3)

/-- Whether a document starts or ends at the cursor, wherever on its line that is. -/
def isAtSeparator (cursor : Cursor) : Bool :=
  cursor.isAtMark '-' || cursor.isAtMark '.'

/-- The place at the start of the next line, when only spaces and a comment come before it. -/
def endLine? (cursor : Cursor) : Option Cursor :=
  let stop := cursor.skipSpaces.skipComment
  match stop.lineBreak? with
  | some (_, after) => some after
  | none => if stop.peek.isNone then some stop else none

end Cursor

end RenderProbe.Yaml
