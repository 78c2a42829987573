import RenderProbe.Text.Letter
import RenderProbe.Yaml.Cursor

/-!
# Scalar texts

The four ways to write a scalar: plain, between single quotes, between double quotes, and as a
block. A single line break inside a scalar is folded into a space, further ones are kept.
-/

namespace RenderProbe.Yaml

/-! ## Line breaks inside scalars -/

/-- What a line break and the breaks after it stand for: a lone line feed is a space, and of several
the first is dropped. A break of another kind stands for itself. -/
def folded (first : Char) (further : List Char) : List Char :=
  if first != '\n' then first :: further
  else if further.isEmpty then [' ']
  else further

/-! ## Plain scalars -/

/-- A character that has a meaning of its own inside flow collections. -/
def isFlowMark (c : Char) : Bool :=
  c == ',' || c == '[' || c == ']' || c == '\x7b' || c == '\x7d'

/-- Whether a plain scalar stops before a character, by the character that follows it. Inside a flow
collection the marks of collections end it, outside they belong to it. -/
def plainStops (flow : Bool) (c : Char) (following : Option Char) : Bool :=
  isBlankEnd (some c)
    || (c == ':' && (isBlankEnd following || (flow && following.any isFlowMark)))
    || (flow && (isFlowMark c || c == '?'))

/-- The characters of a plain scalar up to the first blank or mark. -/
def plainRun (flow : Bool) : List Char → List Char
  | [] => []
  | c :: rest => if plainStops flow c rest.head? then [] else c :: plainRun flow rest

/-- A text read from a place, and whether a line ended after it. -/
structure PlainPart where
  text : List Char
  cursor : Cursor
  crossed : Bool

/-- Empty lines after a line break, up to a document separator if one comes first. -/
def plainBreaks : Nat → List Char → Cursor → Option (List Char × Cursor)
  | 0, breaks, cursor => some (breaks.reverse, cursor)
  | rounds + 1, breaks, cursor =>
    if cursor.isAt ' ' then plainBreaks rounds breaks cursor.next
    else match cursor.lineBreak? with
      | none => some (breaks.reverse, cursor)
      | some (c, after) =>
        if after.isAtSeparator then none else plainBreaks rounds (c :: breaks) after

/-- What separates two pieces of a plain scalar; nothing where the scalar has to end. Blanks before
a line break do not count, and neither do those that start a line. -/
def plainGap (cursor : Cursor) : PlainPart :=
  let blanks := cursor.run (· == ' ')
  let stop := cursor.advance blanks.length
  match stop.lineBreak? with
  | none => ⟨blanks, stop, false⟩
  | some (first, after) =>
    if after.isAtSeparator then ⟨[], after, true⟩
    else match plainBreaks (after.rest.length + 1) [] after with
      | none => ⟨[], after, true⟩
      | some (further, next) => ⟨folded first further, next, true⟩

/-- A plain scalar from a place on, with `text` and then `gap` read before. The gap counts only if
another piece follows it, so blanks at the end are never part of the scalar. -/
def plainFrom (flow : Bool) (indent : Int) :
    Nat → List Char → List Char → Bool → Cursor → PlainPart
  | 0, text, _, crossed, cursor => ⟨text, cursor, crossed⟩
  | rounds + 1, text, gap, crossed, cursor =>
    let piece := plainRun flow cursor.rest
    if cursor.isAt '#' || piece.isEmpty then ⟨text, cursor, crossed⟩
    else
      let whole := text ++ gap ++ piece
      let next := plainGap (cursor.advance piece.length)
      if next.text.isEmpty || next.cursor.isAt '#'
          || (!flow && (next.cursor.column : Int) < indent) then
        ⟨whole, next.cursor, next.crossed⟩
      else plainFrom flow indent rounds whole next.text next.crossed next.cursor

def plain (flow : Bool) (indent : Int) (cursor : Cursor) : PlainPart :=
  plainFrom flow indent (cursor.rest.length + 1) [] [] false cursor

/-! ## Quoted scalars -/

/-- What a character stands for after a backslash. -/
def escaped? (c : Char) : Option Nat :=
  match c with
  | '0' => some 0
  | 'a' => some 7
  | 'b' => some 8
  | 't' => some 9
  | '\t' => some 9
  | 'n' => some 10
  | 'v' => some 11
  | 'f' => some 12
  | 'r' => some 13
  | 'e' => some 27
  | ' ' => some 32
  | '"' => some 34
  | '\\' => some 92
  | '/' => some 47
  | 'N' => some 0x85
  | '_' => some 0xA0
  | 'L' => some 0x2028
  | 'P' => some 0x2029
  | _ => none

/-- The number of hexadecimal digits after a letter that introduces a code point. -/
def codeWidth? (c : Char) : Option Nat :=
  match c with
  | 'x' => some 2
  | 'u' => some 4
  | 'U' => some 8
  | _ => none

def charOfCode (code : Nat) : Except Error Char :=
  if code < 0x110000 then .ok (Char.ofNat code)
  else .error (.fault "chr() arg not in range(0x110000)")

/-- Line breaks after the first inside quotes, with the blanks that start their lines. -/
def quotedBreaks : Nat → List Char → Cursor → Except Error (List Char × Cursor)
  | 0, breaks, cursor => .ok (breaks.reverse, cursor)
  | rounds + 1, breaks, cursor =>
    if cursor.isAtSeparator then .error .malformed
    else
      let stop := cursor.skip fun c => c == ' ' || c == '\t'
      match stop.lineBreak? with
      | some (c, after) => quotedBreaks rounds (c :: breaks) after
      | none => .ok (breaks.reverse, stop)

/-- What stands after a backslash between double quotes. -/
def escapeSequence (cursor : Cursor) : Except Error (List Char × Cursor) :=
  match cursor.peek with
  | none => .error .malformed
  | some c => match escaped? c, codeWidth? c with
    | some code, _ => .ok ([Char.ofNat code], cursor.next)
    | none, some width =>
      let digits := cursor.next.rest.take width
      match Text.hexNumber? digits with
      | some code =>
        if digits.length < width then .error .malformed
        else match charOfCode code with
          | .ok c => .ok ([c], cursor.advance (width + 1))
          | .error e => .error e
      | none => .error .malformed
    | none, none => match cursor.lineBreak? with
      | some (_, after) => quotedBreaks (after.rest.length + 1) [] after
      | none => .error .malformed

/-- Blanks inside quotes; blanks around a line break do not count. -/
def quotedGap (cursor : Cursor) : Except Error (List Char × Cursor) :=
  let blanks := cursor.run fun c => c == ' ' || c == '\t'
  let stop := cursor.advance blanks.length
  match stop.lineBreak? with
  | none => if stop.peek.isNone then .error .malformed else .ok (blanks, stop)
  | some (first, after) => match quotedBreaks (after.rest.length + 1) [] after with
    | .error e => .error e
    | .ok (further, next) => .ok (folded first further, next)

/-- The rest of a quoted scalar; `text` was read before. -/
def quotedFrom (double : Bool) : Nat → List Char → Cursor → Except Error (List Char × Cursor)
  | 0, _, _ => .error .malformed
  | rounds + 1, text, cursor => match cursor.peek with
    | none => .error .malformed
    | some c =>
      if c == '"' && double then .ok (text, cursor.next)
      else if c == '\'' && !double then
        if cursor.peek 1 == some '\'' then
          quotedFrom double rounds (text ++ ['\'']) (cursor.advance 2)
        else .ok (text, cursor.next)
      else if c == '\\' && double then match escapeSequence cursor.next with
        | .error e => .error e
        | .ok (chars, after) => quotedFrom double rounds (text ++ chars) after
      else if isBlankEnd (some c) then match quotedGap cursor with
        | .error e => .error e
        | .ok (chars, after) => quotedFrom double rounds (text ++ chars) after
      else
        let piece := cursor.run fun d =>
          !(d == '\'' || d == '"' || d == '\\' || isBlankEnd (some d))
        let taken := if piece.isEmpty then [c] else piece
        quotedFrom double rounds (text ++ taken) (cursor.advance taken.length)

/-- A quoted scalar at its opening quote. -/
def quotedScalar (double : Bool) (cursor : Cursor) : Except Error (List Char × Cursor) :=
  quotedFrom double (cursor.rest.length + 1) [] cursor.next

/-! ## Block scalars -/

/-- What becomes of the line breaks at the end of a block. -/
inductive Chomping where
  | clip
  | strip
  | keep
  deriving DecidableEq, Inhabited

/-- The head of a block: its chomping and how far it is indented, if that is said. -/
structure BlockHead where
  chomping : Chomping := .clip
  increment : Option Nat := none

/-- The chomping a sign asks for. -/
def chompingOf? (c : Option Char) : Option Chomping :=
  if c == some '+' then some .keep else if c == some '-' then some .strip else none

/-- The increment a digit asks for. -/
def incrementOf? (c : Option Char) : Option Nat :=
  match c with
  | some d => if d.isDigit then some (d.toNat - 48) else none
  | none => none

/-- The signs after the mark of a block, in either order. -/
def blockSigns (cursor : Cursor) : BlockHead × Cursor :=
  match chompingOf? cursor.peek, incrementOf? cursor.peek with
  | some chomping, _ => match incrementOf? (cursor.peek 1) with
    | some n => (⟨chomping, some n⟩, cursor.advance 2)
    | none => (⟨chomping, none⟩, cursor.next)
  | none, some n => match chompingOf? (cursor.peek 1) with
    | some chomping => (⟨chomping, some n⟩, cursor.advance 2)
    | none => (⟨.clip, some n⟩, cursor.next)
  | none, none => ({}, cursor)

/-- The empty lines that start a block, and the widest indentation met on the way. -/
def blockIndentation : Nat → List Char → Nat → Cursor → List Char × Nat × Cursor
  | 0, breaks, widest, cursor => (breaks.reverse, widest, cursor)
  | rounds + 1, breaks, widest, cursor =>
    if cursor.isAt ' ' then
      blockIndentation rounds breaks (max widest cursor.next.column) cursor.next
    else match cursor.lineBreak? with
      | some (c, after) => blockIndentation rounds (c :: breaks) widest after
      | none => (breaks.reverse, widest, cursor)

def skipIndentation (column : Nat) : Nat → Cursor → Cursor
  | 0, cursor => cursor
  | rounds + 1, cursor =>
    if cursor.column < column && cursor.isAt ' ' then skipIndentation column rounds cursor.next
    else cursor

/-- Empty lines inside a block, and the place where the next line's text starts. -/
def blockBreaks (column : Nat) : Nat → List Char → Cursor → List Char × Cursor
  | 0, breaks, cursor => (breaks.reverse, cursor)
  | rounds + 1, breaks, cursor =>
    let stop := skipIndentation column column cursor
    match stop.lineBreak? with
    | some (c, after) => blockBreaks column rounds (c :: breaks) after
    | none => (breaks.reverse, stop)

def isBlankAt (cursor : Cursor) : Bool :=
  cursor.isAt ' ' || cursor.isAt '\t'

/-- The rest of a block: its text, the last line break, the breaks after it, and the place
behind. -/
def blockLines (fold : Bool) (column : Nat) :
    Nat → List Char → List Char → Cursor → List Char × List Char × List Char × Cursor
  | 0, text, breaks, cursor => (text, [], breaks, cursor)
  | rounds + 1, text, breaks, cursor =>
    let indented := isBlankAt cursor
    let line := cursor.run fun c => !isBreak c
    let whole := text ++ breaks ++ line
    let stop := cursor.advance line.length
    let (lineBreak, after) := match stop.lineBreak? with
      | some (c, after) => ([c], after)
      | none => ([], stop)
    let (further, next) := blockBreaks column (after.rest.length + 1) [] after
    if next.column == column && next.peek.isSome then
      let joined :=
        if fold && lineBreak == ['\n'] && !indented && !isBlankAt next then
          if further.isEmpty then [' '] else []
        else lineBreak
      blockLines fold column rounds (whole ++ joined) further next
    else (whole, lineBreak, further, next)

/-- A block scalar at its mark, inside a block that is indented by `indent`. -/
def blockScalar (fold : Bool) (indent : Int) (cursor : Cursor) :
    Except Error (List Char × Cursor) :=
  let (head, signsEnd) := blockSigns cursor.next
  if head.increment == some 0 || !isSpaceEnd signsEnd.peek then .error .malformed
  else match signsEnd.endLine? with
    | none => .error .malformed
    | some start =>
      let least := (max (indent + 1) 1).toNat
      let (breaks, column, first) := match head.increment with
        | some n =>
          let column := least + n - 1
          let (breaks, first) := blockBreaks column (start.rest.length + 1) [] start
          (breaks, column, first)
        | none =>
          let (breaks, widest, first) := blockIndentation (start.rest.length + 1) [] 0 start
          (breaks, max least widest, first)
      let (text, lineBreak, further, stop) :=
        if first.column == column && first.peek.isSome then
          blockLines fold column (first.rest.length + 1) [] breaks first
        else ([], [], breaks, first)
      .ok (match head.chomping with
        | .strip => text
        | .clip => text ++ lineBreak
        | .keep => text ++ lineBreak ++ further, stop)

end RenderProbe.Yaml
