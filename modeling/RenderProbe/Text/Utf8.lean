import RenderProbe.Text.Quoted

/-!
# Text in bytes

Bytes read as UTF-8. A strict reading refuses bytes that spell no text; a lossy reading puts one
replacement character in the place of each longest malformed piece. Texts that are not sources are
read with every kind of line end as a line feed.
-/

namespace RenderProbe.Text

/-! ## Line ends -/

/-- A carriage return, alone or before a line feed, becomes a line feed. A line feed and a carriage
return in this order are two line ends. -/
def unifyBreaks : List Char → List Char
  | '\r' :: '\n' :: rest => '\n' :: unifyBreaks rest
  | '\r' :: rest => '\n' :: unifyBreaks rest
  | c :: rest => c :: unifyBreaks rest
  | [] => []

/-- A text with every line end as a line feed. -/
def withUnifiedBreaks (text : String) : String :=
  String.ofList (unifyBreaks text.toList)

/-! ## Malformed bytes -/

/-- A character that is not complete: the bytes owed, the range of the next one, and the code so
far. -/
structure Pending where
  owed : Nat
  least : Nat
  greatest : Nat
  code : Nat
  deriving DecidableEq, Inhabited

/-- What a byte means where a character starts. -/
inductive Lead where
  | whole (c : Char)
  | pending (state : Pending)
  | invalid
  deriving Inhabited

/-- Read the first byte of a character. -/
def lead (byte : Nat) : Lead :=
  if byte < 0x80 then .whole (Char.ofNat byte)
  else if byte < 0xC2 then .invalid
  else if byte < 0xE0 then .pending ⟨1, 0x80, 0xBF, byte - 0xC0⟩
  else if byte < 0xF0 then
    .pending ⟨2, if byte == 0xE0 then 0xA0 else 0x80, if byte == 0xED then 0x9F else 0xBF,
      byte - 0xE0⟩
  else if byte < 0xF5 then
    .pending ⟨3, if byte == 0xF0 then 0x90 else 0x80, if byte == 0xF4 then 0x8F else 0xBF,
      byte - 0xF0⟩
  else .invalid

/-- The character that stands for a malformed piece. -/
def replacement : Char :=
  Char.ofNat 0xFFFD

/-- What a byte adds where a character starts, and what it leaves pending. -/
def lossyLead (byte : Nat) : List Char × Option Pending :=
  match lead byte with
  | .whole c => ([c], none)
  | .pending state => ([], some state)
  | .invalid => ([replacement], none)

/-- What the next byte adds, and what it leaves pending. A byte that does not continue a character
is read again as the first byte of another one. -/
def lossyStep (pending : Option Pending) (byte : Nat) : List Char × Option Pending :=
  match pending with
  | none => lossyLead byte
  | some state =>
    if state.least ≤ byte && byte ≤ state.greatest then
      let code := state.code * 64 + (byte - 0x80)
      if state.owed ≤ 1 then ([Char.ofNat code], none)
      else ([], some ⟨state.owed - 1, 0x80, 0xBF, code⟩)
    else
      let (chars, next) := lossyLead byte
      (replacement :: chars, next)

/-- The characters of bytes, after a character that may be pending. -/
def lossyChars (pending : Option Pending) : List UInt8 → List Char
  | [] => if pending.isSome then [replacement] else []
  | byte :: rest =>
    let (chars, next) := lossyStep pending byte.toNat
    chars ++ lossyChars next rest

def ofBytesLossy (bytes : ByteArray) : String :=
  match String.fromUTF8? bytes with
  | some text => text
  | none => String.ofList (lossyChars none bytes.data.toList)

/-! ## The first fault -/

/-- The first malformed piece of some bytes. -/
structure Fault where
  start : Nat
  bytes : List UInt8
  reason : String
  deriving DecidableEq, Inhabited

/-- The first fault from an offset on; `piece` holds the bytes of the pending character, last byte
first. A character that is cut short by the end of the bytes is a fault of its own kind. -/
def fault? (offset : Nat) (piece : List UInt8) (pending : Option Pending) :
    List UInt8 → Option Fault
  | [] => if pending.isSome then
      some ⟨offset - piece.length, piece.reverse, "unexpected end of data"⟩
    else none
  | byte :: rest => match pending with
    | none => match lead byte.toNat with
      | .whole _ => fault? (offset + 1) [] none rest
      | .pending state => fault? (offset + 1) [byte] (some state) rest
      | .invalid => some ⟨offset, [byte], "invalid start byte"⟩
    | some state =>
      if state.least ≤ byte.toNat && byte.toNat ≤ state.greatest then
        if state.owed ≤ 1 then fault? (offset + 1) [] none rest
        else fault? (offset + 1) (byte :: piece) (some ⟨state.owed - 1, 0x80, 0xBF, 0⟩) rest
      else some ⟨offset - piece.length, piece.reverse, "invalid continuation byte"⟩

def Fault.message (fault : Fault) : String :=
  let place := match fault.bytes with
    | [byte] => "byte 0x" ++ String.ofList (hexDigits 2 byte.toNat)
        ++ s!" in position {fault.start}"
    | bytes => s!"bytes in position {fault.start}-{fault.start + bytes.length - 1}"
  s!"'utf-8' codec can't decode {place}: {fault.reason}"

end RenderProbe.Text
