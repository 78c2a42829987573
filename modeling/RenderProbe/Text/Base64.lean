/-!
# Bytes in base sixty-four

Bytes written with four digits for every three of them. Characters that are no digits are passed
over, and padding that completes a group of four ends the text.
-/

namespace RenderProbe.Text

/-- The value of a digit in base sixty-four. -/
def base64Value? (c : Char) : Option Nat :=
  if c.isUpper then some (c.toNat - 65)
  else if c.isLower then some (c.toNat - 71)
  else if c.isDigit then some (c.toNat + 4)
  else if c == '+' then some 62
  else if c == '/' then some 63
  else none

/-- The bytes of digits, where `count` digits of a group and `pads` marks behind them are read and
`left` holds the bits that no byte has taken yet. -/
def base64From (count left pads : Nat) : List Char → Option (List Nat)
  | [] => if count == 0 then some [] else none
  | c :: rest =>
    if c == '=' then
      if count < 2 then base64From count left pads rest
      else if 4 ≤ count + pads + 1 then some []
      else base64From count left (pads + 1) rest
    else match base64Value? c with
      | none => base64From count left pads rest
      | some digit => match count with
        | 0 => base64From 1 digit 0 rest
        | 1 => (base64From 2 (digit % 16) 0 rest).map ((left * 4 + digit / 16) :: ·)
        | 2 => (base64From 3 (digit % 4) 0 rest).map ((left * 16 + digit / 4) :: ·)
        | _ => (base64From 0 0 0 rest).map ((left * 64 + digit) :: ·)

/-- The bytes of a text in base sixty-four; a text beyond ASCII or with a group cut short has
none. -/
def ofBase64? (text : List Char) : Option (List Nat) :=
  if text.all fun c => c.toNat < 128 then base64From 0 0 0 text else none

end RenderProbe.Text
