import RenderProbe.Yaml.Tag

/-!
# Tokens

A text as a list of tokens. Blocks are opened and closed by indentation. A key without a mark of its
own is only known as a key when its colon is met; until then it is pending, and the key's tokens are
put in where it started.
-/

namespace RenderProbe.Yaml

/-- A token of a text. -/
inductive Token where
  | directive (directive : Directive)
  | documentStart
  | documentEnd
  | streamEnd
  | blockSequenceStart
  | blockMappingStart
  | blockEnd
  | flowSequenceStart
  | flowSequenceEnd
  | flowMappingStart
  | flowMappingEnd
  | blockEntry
  | flowEntry
  | key
  | value
  | alias (name : String)
  | anchor (name : String)
  | tag (tag : WrittenTag)
  | scalar (text : List Char) (plain : Bool)
  deriving DecidableEq, Inhabited

/-- A place where a key may have started. Whether it did is known only when a colon comes on the
same line; until then it is kept, with all that is needed to put the key's tokens in there. -/
structure PendingKey where
  /-- The number of tokens before the key. -/
  tokens : Nat
  /-- Nothing else can stand in the key's place. -/
  required : Bool
  index : Nat
  line : Nat
  column : Nat
  deriving DecidableEq, Inhabited

/-- What has been read so far. -/
structure Lexer where
  cursor : Cursor
  tokens : List Token := []
  /-- The number of flow collections that are open. -/
  flow : Nat := 0
  /-- The column of the innermost block, and of those around it. -/
  indent : Int := -1
  indents : List Int := []
  keyAllowed : Bool := true
  /-- The pending keys, by the number of flow collections around them. -/
  keys : List (Nat × PendingKey) := []
  deriving DecidableEq, Inhabited

namespace Lexer

def push (lexer : Lexer) (token : Token) : Lexer :=
  { lexer with tokens := lexer.tokens ++ [token] }

/-- Put a token in before others. -/
def pushAt (lexer : Lexer) (place : Nat) (token : Token) : Lexer :=
  { lexer with tokens := lexer.tokens.take place ++ token :: lexer.tokens.drop place }

def advance (lexer : Lexer) (n : Nat) : Lexer :=
  { lexer with cursor := lexer.cursor.advance n }

/-! ## Pending keys -/

/-- The longest a key without a mark may be. -/
def keyLimit : Nat :=
  1024

/-- A pending key that can no longer be a key: its line has ended, or it is too long. The length
counts all characters since its start. -/
def isStale (cursor : Cursor) (key : PendingKey) : Bool :=
  key.line != cursor.line || keyLimit < cursor.index - key.index

/-- Forget the keys that can no longer be keys. Where nothing but a key could stand, there is no
reading of the text without it, and the text is malformed. -/
def dropStaleKeys (lexer : Lexer) : Except Error Lexer :=
  let stale := lexer.keys.filter fun key => isStale lexer.cursor key.2
  if stale.any fun key => key.2.required then .error .malformed
  else .ok { lexer with keys := lexer.keys.filter fun key => !isStale lexer.cursor key.2 }

def dropKey (lexer : Lexer) : Except Error Lexer :=
  match lexer.keys.lookup lexer.flow with
  | some key =>
    if key.required then .error .malformed
    else .ok { lexer with keys := lexer.keys.filter fun key => key.1 != lexer.flow }
  | none => .ok lexer

/-- Note that a key may start here. It is required where the text stands in the column of a block
outside all flow collections, since a block mapping has nothing but keys there. -/
def saveKey (lexer : Lexer) : Except Error Lexer :=
  if !lexer.keyAllowed then .ok lexer
  else match lexer.dropKey with
    | .error e => .error e
    | .ok lexer =>
      let cursor := lexer.cursor
      let required := lexer.flow == 0 && lexer.indent == (cursor.column : Int)
      let key : PendingKey :=
        ⟨lexer.tokens.length, required, cursor.index, cursor.line, cursor.column⟩
      .ok { lexer with keys := (lexer.flow, key) :: lexer.keys }

/-! ## Blocks -/

/-- Close the blocks that reach beyond a column. The recursion is on the columns around the
innermost block, so each block is closed once. -/
def closeBlocks (column : Int) : List Int → Lexer → Lexer
  | [], lexer => lexer
  | outer :: others, lexer =>
    if column < lexer.indent then
      closeBlocks column others { lexer.push .blockEnd with indent := outer, indents := others }
    else lexer

/-- Close the blocks that reach beyond a column, unless a flow collection is open. Inside one,
indentation has no meaning. -/
def unwind (lexer : Lexer) (column : Int) : Lexer :=
  if lexer.flow != 0 then lexer else closeBlocks column lexer.indents lexer

/-- Open a block at a column, if it is further in. -/
def openBlock (lexer : Lexer) (column : Nat) (place : Nat) (token : Token) : Lexer :=
  if lexer.indent < (column : Int) then
    { lexer.pushAt place token with
      indents := lexer.indent :: lexer.indents, indent := column }
  else lexer

/-! ## Tokens by kind -/

/-- A directive, or the start or end of a document. -/
def boundary (lexer : Lexer) : Except Error Lexer :=
  match (lexer.unwind (-1)).dropKey with
  | .error e => .error e
  | .ok lexer => .ok { lexer with keyAllowed := false }

def finish (lexer : Lexer) : Except Error Lexer :=
  match lexer.boundary with
  | .error e => .error e
  | .ok lexer => .ok (lexer.push .streamEnd)

def flowStart (lexer : Lexer) (token : Token) : Except Error Lexer :=
  match lexer.saveKey with
  | .error e => .error e
  | .ok lexer =>
    .ok { (lexer.push token).advance 1 with flow := lexer.flow + 1, keyAllowed := true }

def flowEnd (lexer : Lexer) (token : Token) : Except Error Lexer :=
  match lexer.dropKey with
  | .error e => .error e
  | .ok lexer =>
    .ok { (lexer.push token).advance 1 with flow := lexer.flow - 1, keyAllowed := false }

def flowEntry (lexer : Lexer) : Except Error Lexer :=
  match lexer.dropKey with
  | .error e => .error e
  | .ok lexer => .ok { (lexer.push .flowEntry).advance 1 with keyAllowed := true }

/-- A mark that opens a block of its kind where it may stand. Inside a flow collection the mark
stands for itself, and opens nothing. -/
def opening (lexer : Lexer) (block mark : Token) (keyAllowed : Bool) : Except Error Lexer :=
  if lexer.flow == 0 && !lexer.keyAllowed then .error .malformed
  else
    let opened :=
      if lexer.flow == 0 then
        lexer.openBlock lexer.cursor.column lexer.tokens.length block
      else lexer
    match opened.dropKey with
    | .error e => .error e
    | .ok lexer => .ok { (lexer.push mark).advance 1 with keyAllowed }

/-- The hyphen of a block sequence. -/
def blockEntry (lexer : Lexer) : Except Error Lexer :=
  lexer.opening .blockSequenceStart .blockEntry true

/-- The question mark before a key. -/
def keyMark (lexer : Lexer) : Except Error Lexer :=
  lexer.opening .blockMappingStart .key (lexer.flow == 0)

/-- The colon before a value: what is pending was a key. Its token goes in where it started, and a
block mapping is opened there if the key is further in than the block around it. -/
def valueMark (lexer : Lexer) : Except Error Lexer :=
  match lexer.keys.lookup lexer.flow with
  | some key =>
    let keyed := { lexer.pushAt key.tokens .key with
      keys := lexer.keys.filter fun key => key.1 != lexer.flow }
    let opened :=
      if lexer.flow == 0 then keyed.openBlock key.column key.tokens .blockMappingStart else keyed
    .ok { (opened.push .value).advance 1 with keyAllowed := false }
  | none => lexer.opening .blockMappingStart .value (lexer.flow == 0)

/-- A token that may start a key, read by `read?`. The key is noted first, with the place in front
of the token. -/
def keyed {α : Type} (lexer : Lexer) (token : α → Token)
    (read : Cursor → Except Error (α × Cursor)) : Except Error Lexer :=
  match lexer.saveKey with
  | .error e => .error e
  | .ok lexer => match read lexer.cursor with
    | .error e => .error e
    | .ok (found, cursor) => .ok { lexer.push (token found) with cursor, keyAllowed := false }

def block (lexer : Lexer) (fold : Bool) : Except Error Lexer :=
  match lexer.dropKey with
  | .error e => .error e
  | .ok lexer => match blockScalar fold lexer.indent lexer.cursor with
    | .error e => .error e
    | .ok (text, cursor) =>
      .ok { lexer.push (.scalar text false) with cursor, keyAllowed := true }

def plain (lexer : Lexer) : Except Error Lexer :=
  match lexer.saveKey with
  | .error e => .error e
  | .ok lexer =>
    let part := Yaml.plain (lexer.flow != 0) (lexer.indent + 1) lexer.cursor
    .ok { lexer.push (.scalar part.text true) with
      cursor := part.cursor, keyAllowed := part.crossed }

/-! ## The whole text -/

/-- Skip blanks, comments and line breaks, at most `rounds` lines of them. -/
def skipBlanks : Nat → Lexer → Lexer
  | 0, lexer => lexer
  | rounds + 1, lexer =>
    let stop := lexer.cursor.skipSpaces.skipComment
    match stop.lineBreak? with
    | some (_, after) => skipBlanks rounds
        { lexer with cursor := after, keyAllowed := lexer.keyAllowed || lexer.flow == 0 }
    | none => { lexer with cursor := stop }

/-- Characters that start no plain scalar. -/
def indicators : List Char :=
  "-?:,[]\x7b\x7d#&*!|>'\"%@`".toList

/-- Whether a plain scalar starts at the cursor. A hyphen, a question mark and a colon may start one
if no blank follows, the last two outside flow collections only. -/
def startsPlain (lexer : Lexer) (c : Char) : Bool :=
  (!isBlankEnd (some c) && !indicators.contains c)
    || (!isBlankEnd (lexer.cursor.peek 1)
        && (c == '-' || (lexer.flow == 0 && (c == '?' || c == ':'))))

/-- The result of an optional reading as one that may fail. -/
def orMalformed {α : Type} : Option α → Except Error α
  | some a => .ok a
  | none => .error .malformed

def token (lexer : Lexer) (c : Char) : Except Error Lexer :=
  let cursor := lexer.cursor
  let beforeBlank := isBlankEnd (cursor.peek 1)
  if c == '%' && cursor.column == 0 then match lexer.boundary with
    | .error e => .error e
    | .ok lexer => match directive? lexer.cursor with
      | some (directive, cursor) => .ok { lexer.push (.directive directive) with cursor }
      | none => .error .malformed
  else if cursor.column == 0 && cursor.isAtMark '-' then
    lexer.boundary.map fun lexer => (lexer.push .documentStart).advance 3
  else if cursor.column == 0 && cursor.isAtMark '.' then
    lexer.boundary.map fun lexer => (lexer.push .documentEnd).advance 3
  else if c == '[' then lexer.flowStart .flowSequenceStart
  else if c == '\x7b' then lexer.flowStart .flowMappingStart
  else if c == ']' then lexer.flowEnd .flowSequenceEnd
  else if c == '\x7d' then lexer.flowEnd .flowMappingEnd
  else if c == ',' then lexer.flowEntry
  else if c == '-' && beforeBlank then lexer.blockEntry
  else if c == '?' && (lexer.flow != 0 || beforeBlank) then lexer.keyMark
  else if c == ':' && (lexer.flow != 0 || beforeBlank) then lexer.valueMark
  else if c == '*' then lexer.keyed .alias fun cursor => orMalformed (anchorName? cursor)
  else if c == '&' then lexer.keyed .anchor fun cursor => orMalformed (anchorName? cursor)
  else if c == '!' then lexer.keyed .tag fun cursor => orMalformed (tag? cursor)
  else if c == '|' && lexer.flow == 0 then lexer.block false
  else if c == '>' && lexer.flow == 0 then lexer.block true
  else if c == '\'' then
    lexer.keyed (.scalar · false) (quotedScalar false)
  else if c == '"' then
    lexer.keyed (.scalar · false) (quotedScalar true)
  else if lexer.startsPlain c then lexer.plain
  else .error .malformed

/-- Read tokens to the end of the text, at most `rounds` of them. Every round takes at least one
character, so the length of the text is enough of them. -/
def run : Nat → Lexer → Except Error (List Token)
  | 0, _ => .error .malformed
  | rounds + 1, lexer => match (skipBlanks (lexer.cursor.rest.length + 1) lexer).dropStaleKeys with
    | .error e => .error e
    | .ok lexer =>
      let lexer := lexer.unwind lexer.cursor.column
      match lexer.cursor.peek with
      | none => lexer.finish.map (·.tokens)
      | some c => match lexer.token c with
        | .error e => .error e
        | .ok lexer => run rounds lexer

end Lexer

def isAllowed (c : Char) : Bool :=
  let n := c.toNat
  n == 9 || n == 10 || n == 13 || (32 ≤ n && n ≤ 126) || n == 0x85 || (0xA0 ≤ n && n ≤ 0xD7FF)
    || (0xE000 ≤ n && n ≤ 0xFFFD) || 0x10000 ≤ n

/-- The tokens of a text. A character that is not allowed refuses the whole text, wherever it
stands, and a byte order mark at the start is passed over. -/
def tokens (text : List Char) : Except Error (List Token) :=
  if !text.all isAllowed then .error .malformed
  else
    let start : Cursor := ⟨text, 0, 0, 0⟩
    let cursor := if text.head? == some (Char.ofNat 0xFEFF) then start.next else start
    Lexer.run (text.length + 2) { cursor }

end RenderProbe.Yaml
