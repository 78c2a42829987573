import RenderProbe.Yaml.Scalar
import RenderProbe.Text.Utf8

/-!
# Tags, anchors and directives

The parts of a text that are written with a mark in front: names of anchors, tags of nodes, and the
directives before a document.
-/

namespace RenderProbe.Yaml

/-- A tag as written: a suffix after a handle, or without one. -/
structure WrittenTag where
  handle : Option String
  suffix : String
  deriving DecidableEq, Inhabited

/-- A directive before a document. -/
inductive Directive where
  | version (major : Nat)
  | tag (handle uri : String)
  | other
  deriving DecidableEq, Inhabited

/-! ## Anchors -/

/-- The name of an anchor or alias after its mark. -/
def anchorName? (cursor : Cursor) : Option (String × Cursor) :=
  let name := cursor.next.run isNameChar
  let stop := cursor.next.advance name.length
  let closed := isBlankEnd stop.peek
    || stop.peek.any fun c => "?:,]\x7d%@`".toList.contains c
  if name.isEmpty || !closed then none else some (String.ofList name, stop)

/-! ## Tags -/

def isUriChar (c : Char) : Bool :=
  c.isAlphanum || "-;/?:@&=+$,_.!~*'()[]".toList.contains c

/-- Escaped bytes, as many as stand in a row; `bytes` were read before, last first. -/
def uriBytes : Nat → List UInt8 → Cursor → Option (List UInt8 × Cursor)
  | 0, bytes, cursor => some (bytes.reverse, cursor)
  | rounds + 1, bytes, cursor =>
    if !cursor.isAt '%' then some (bytes.reverse, cursor)
    else
      let digits := cursor.next.rest.take 2
      match Text.hexNumber? digits with
      | some code =>
        if digits.length < 2 then none
        else uriBytes rounds (code.toUInt8 :: bytes) (cursor.advance 3)
      | none => none

/-- The text of a tag; `text` was read before. -/
def uriFrom : Nat → List Char → Cursor → Option (List Char × Cursor)
  | 0, text, cursor => some (text, cursor)
  | rounds + 1, text, cursor =>
    if cursor.isAt '%' then match uriBytes (cursor.rest.length + 1) [] cursor with
      | none => none
      | some (bytes, after) => match String.fromUTF8? ⟨bytes.toArray⟩ with
        | some piece => uriFrom rounds (text ++ piece.toList) after
        | none => none
    else
      let piece := cursor.run isUriChar
      if piece.isEmpty then some (text, cursor)
      else uriFrom rounds (text ++ piece) (cursor.advance piece.length)

/-- The text of a tag, which is not empty. -/
def uri? (cursor : Cursor) : Option (String × Cursor) :=
  match uriFrom (cursor.rest.length + 1) [] cursor with
  | some (text, after) =>
    if after.index == cursor.index then none else some (String.ofList text, after)
  | none => none

/-- The handle of a tag: one mark, or a name between two. -/
def tagHandle? (cursor : Cursor) : Option (String × Cursor) :=
  if !cursor.isAt '!' then none
  else if cursor.peek 1 == some ' ' then some ("!", cursor.next)
  else
    let name := cursor.next.run isNameChar
    let stop := cursor.next.advance name.length
    if stop.isAt '!' then some (String.ofList ('!' :: name ++ ['!']), stop.next) else none

/-- A tag at its mark. -/
def tag? (cursor : Cursor) : Option (WrittenTag × Cursor) :=
  let following := cursor.peek 1
  let found :=
    if following == some '<' then match uri? (cursor.advance 2) with
      | some (suffix, stop) =>
        if stop.isAt '>' then some (⟨none, suffix⟩, stop.next) else none
      | none => none
    else if isBlankEnd following then some (⟨none, "!"⟩, cursor.next)
    else
      let word := cursor.next.run fun c => !(c == ' ' || isBreak c)
      let handled := if word.contains '!' then tagHandle? cursor else some ("!", cursor.next)
      match handled with
      | some (handle, start) => match uri? start with
        | some (suffix, stop) => some (⟨some handle, suffix⟩, stop)
        | none => none
      | none => none
  match found with
  | some (tag, stop) => if isSpaceEnd stop.peek then some (tag, stop) else none
  | none => none

/-! ## Directives -/

def numberOf (digits : List Char) : Nat :=
  digits.foldl (fun n d => n * 10 + (d.toNat - 48)) 0

/-- The version after the name of a version directive. -/
def versionDirective? (cursor : Cursor) : Option (Directive × Cursor) :=
  let start := cursor.skipSpaces
  let major := start.run Char.isDigit
  let point := start.advance major.length
  let minor := point.next.run Char.isDigit
  let stop := point.next.advance minor.length
  if major.isEmpty || !point.isAt '.' || minor.isEmpty || !isSpaceEnd stop.peek then none
  else some (.version (numberOf major), stop)

/-- The handle and the text after the name of a tag directive. -/
def tagDirective? (cursor : Cursor) : Option (Directive × Cursor) :=
  match tagHandle? cursor.skipSpaces with
  | none => none
  | some (handle, afterHandle) =>
    if !afterHandle.isAt ' ' then none
    else match uri? afterHandle.skipSpaces with
      | some (uri, stop) => if isSpaceEnd stop.peek then some (.tag handle uri, stop) else none
      | none => none

/-- A directive at its mark, with the rest of its line. -/
def directive? (cursor : Cursor) : Option (Directive × Cursor) :=
  let name := cursor.next.run isNameChar
  let stop := cursor.next.advance name.length
  if name.isEmpty || !isSpaceEnd stop.peek then none
  else
    let found :=
      if name == "YAML".toList then versionDirective? stop
      else if name == "TAG".toList then tagDirective? stop
      else some (.other, stop.skip fun c => !isBreak c)
    match found with
    | some (directive, after) => (after.endLine?).map fun next => (directive, next)
    | none => none

end RenderProbe.Yaml
