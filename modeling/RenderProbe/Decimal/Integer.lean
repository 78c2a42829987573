import RenderProbe.Text.Letter

/-!
# Integers as texts

Integers as people write them: blanks around, a sign, a mark for the base, digits of any script, and
single low lines between digits. Reading and writing take quadratic time in base ten, so there only
a limited number of digits is read or written.

* `read`: the integer that a text spells.
* `integerText?`: the text of an integer.
-/

namespace RenderProbe.Decimal

/-- Why a text is not read as an integer. -/
inductive Unread where
  | invalid
  /-- More digits than are read. -/
  | tooLong (digits : Nat)
  deriving DecidableEq, Inhabited

/-- The most decimal digits that are read or written. -/
def digitLimit : Nat :=
  4300

/-- What is said about a number of more digits than are read. -/
def tooLongMessage (digits : Nat) : String :=
  s!"Exceeds the limit ({digitLimit} digits) for integer string conversion: value has {digits} digits; "
    ++ "use sys.set_int_max_str_digits() to increase the limit"

/-! ## Characters -/

/-- A character as numbers are read: digits of other scripts count as digits and blanks as spaces.
Nothing else beyond ASCII has a meaning, and a question mark stands for it. -/
def plainChar (c : Char) : Char :=
  if c.toNat < 127 then c
  else if Text.isBlank c then ' '
  else match Text.digitValue? c with
    | some d => Nat.digitChar d
    | none => '?'

/-- A blank that may stand around a number; the information separators may not. -/
def isMargin (c : Char) : Bool :=
  c == ' ' || (9 ≤ c.toNat && c.toNat ≤ 13)

/-- The value of a digit in a base. -/
def digitIn? (base : Nat) (c : Char) : Option Nat :=
  (Text.hexValue? c).filter (· < base)

/-- Whether a letter after a zero marks a base. -/
def marksBase (base : Nat) (c : Char) : Bool :=
  (base == 2 && (c == 'b' || c == 'B')) || (base == 8 && (c == 'o' || c == 'O'))
    || (base == 16 && (c == 'x' || c == 'X'))

/-! ## Reading -/

/-- A sign at the front of a text and what follows. -/
def splitSign : List Char → Bool × List Char
  | '-' :: rest => (true, rest)
  | '+' :: rest => (false, rest)
  | text => (false, text)

/-- A text without the mark of its base, behind which one low line may stand. -/
def withoutMark (base : Nat) : List Char → List Char
  | '0' :: c :: rest =>
    if marksBase base c then if rest.head? == some '_' then rest.drop 1 else rest
    else '0' :: c :: rest
  | text => text

/-- Digits with the low lines between them taken away; a low line may not start, end or follow
another. -/
def withoutLowLines? : List Char → Option (List Char)
  | [] => some []
  | ['_'] => none
  | c :: '_' :: rest =>
    if c == '_' || rest.head? == some '_' || rest.isEmpty then none
    else (withoutLowLines? rest).map (c :: ·)
  | c :: rest => if c == '_' then none else (withoutLowLines? rest).map (c :: ·)

def digitsValue (base : Nat) (digits : List Char) : Nat :=
  digits.foldl (fun n c => n * base + (digitIn? base c).getD 0) 0

/-- The number at the front of a text, behind which only blanks may stand. The length is looked at
before what stands behind, so a long number with a fault behind it counts as long. -/
def readDigits (base : Nat) (text : List Char) : Except Unread Nat :=
  let run := text.takeWhile fun c => (digitIn? base c).isSome || c == '_'
  match withoutLowLines? run with
  | none => .error .invalid
  | some digits =>
    if base == 10 && digitLimit < digits.length then .error (.tooLong digits.length)
    else if digits.isEmpty || !(text.drop run.length).all isMargin then .error .invalid
    else .ok (digitsValue base digits)

/-- The integer that a text spells in a base. The text may have blanks around it, a sign, and the
mark of the base behind the sign. -/
def read (base : Nat) (text : List Char) : Except Unread Int :=
  let (negative, body) := splitSign ((text.map plainChar).dropWhile isMargin)
  (readDigits base (withoutMark base body)).map fun n => if negative then -(n : Int) else n

/-- The integer that a text spells in base ten. -/
def integer? (text : String) : Option Int :=
  (read 10 text.toList).toOption

/-! ## Writing -/

/-- Whether an integer has more digits than are written. The comparison is with a power of ten,
which need not be computed in a proof; hence it is not unfolded. -/
@[irreducible]
def isOverlong (n : Int) : Bool :=
  Nat.pow 10 digitLimit ≤ n.natAbs

/-- The text of an integer that is short enough to be written. -/
def integerText? (n : Int) : Option String :=
  if isOverlong n then none else some (toString n)

end RenderProbe.Decimal
