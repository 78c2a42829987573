import RenderProbe.Decimal.Point
import RenderProbe.Text.Fields
import RenderProbe.Text.Quoted
import RenderProbe.Fault

/-!
# Numbers

The texts of integers and of numbers with a point. Low lines do not count. What is left of the text
behind a sign and the mark of a base is read as any number is, so that a second sign or mark may
stand there.
-/

namespace RenderProbe.Yaml

open Decimal (Double Unread)

/-- The fault of looking at the first character of nothing. -/
def noFirst : Fault :=
  ⟨.noIndex, "string index out of range"⟩

/-! ## Integers -/

/-- What is said about a text that is no integer; it is shown as far as messages go. -/
def unreadMessage (base : Nat) (text : List Char) : Unread → String
  | .invalid =>
    let shown := (Text.quoted (String.ofList text)).toList.take 200
    s!"invalid literal for int() with base {base}: " ++ String.ofList shown
  | .tooLong digits => Decimal.tooLongMessage digits

def inBase (base : Nat) (text : List Char) : Except Fault Int :=
  match Decimal.read base text with
  | .ok n => .ok n
  | .error why => .error (unreadMessage base text why)

/-- Counts of sixtieths put together, behind those that make up `total`. -/
def inBaseSixty (total : Int) : List (List Char) → Except Fault Int
  | [] => .ok total
  | field :: rest => match inBase 10 field with
    | .ok n => inBaseSixty (total * 60 + n) rest
    | .error fault => .error fault

/-- An integer behind its sign. -/
def unsignedInt (body : List Char) : Except Fault Int :=
  match body with
  | [] => .error noFirst
  | ['0'] => .ok 0
  | '0' :: 'b' :: digits => inBase 2 digits
  | '0' :: 'x' :: digits => inBase 16 digits
  | '0' :: _ => inBase 8 body
  | _ => if body.contains ':' then inBaseSixty 0 (Text.fields ':' body) else inBase 10 body

/-- An integer: binary, octal, decimal, hexadecimal or in base sixty. -/
def readInt (text : List Char) : Except Fault Int :=
  let (negative, body) := Decimal.splitSign (text.filter (· != '_'))
  (unsignedInt body).map fun n => if negative then -n else n

/-! ## Numbers with a point -/

def double (text : List Char) : Except Fault Double :=
  match Decimal.double? text with
  | some x => .ok x
  | none => .error ("could not convert string to float: " ++ Text.quoted (String.ofList text))

def doubles : List (List Char) → Except Fault (List Double)
  | [] => .ok []
  | field :: rest => match double field with
    | .ok x => (doubles rest).map (x :: ·)
    | .error fault => .error fault

/-- Counts of sixtieths, the last first, added up in this order from the place `unit` on. -/
def sumOfSixtieths (unit : Nat) (total : Double) : List Double → Except Fault Double
  | [] => .ok total
  | x :: rest => match Double.ofNat? unit with
    | some factor => sumOfSixtieths (unit * 60) (total.add (x.mul factor)) rest
    | none => .error ⟨.overflow, "int too large to convert to float"⟩

/-- A number with a point behind its sign. -/
def unsignedFloat (body : List Char) : Except Fault Double :=
  if body == ".inf".toList then .ok (.infinite false)
  else if body == ".nan".toList then .ok .notANumber
  else if body.contains ':' then match doubles (Text.fields ':' body) with
    | .ok counts => sumOfSixtieths 1 (.finite false 0 0) counts.reverse
    | .error fault => .error fault
  else double body

/-- A number with a point, an infinity, or the value that is no number. -/
def readFloat (text : List Char) : Except Fault Double :=
  match (Text.lowercase (String.ofList (text.filter (· != '_')))).toList with
  | [] => .error noFirst
  | chars =>
    let (negative, body) := Decimal.splitSign chars
    (unsignedFloat body).map fun x => if negative then x.neg else x

end RenderProbe.Yaml
