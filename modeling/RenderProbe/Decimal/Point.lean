import RenderProbe.Decimal.Double
import RenderProbe.Decimal.Integer

/-!
# Reading numbers with a point

Numbers as people write them: blanks around, a sign, digits with at most one point among them, and
an exponent. Infinities and the value that is no number have words.
-/

namespace RenderProbe.Decimal

/-- The number that digits spell, if they are digits and there are some. -/
def natural? (digits : List Char) : Option Nat :=
  if !digits.isEmpty && digits.all Char.isDigit then some (digitsValue 10 digits) else none

/-- The exponent behind its mark, with or without a sign. -/
def exponent? (text : List Char) : Option Int :=
  let (negative, digits) := splitSign text
  (natural? digits).map fun n => if negative then -(n : Int) else n

/-- A decimal number as digits and the power of ten they count. -/
def decimal? (text : List Char) : Option (Nat × Int) :=
  let mark := text.takeWhile fun c => c != 'e' && c != 'E'
  let whole := mark.takeWhile (· != '.')
  let part := mark.drop (whole.length + 1)
  let exponent :=
    if mark.length == text.length then some 0 else exponent? (text.drop (mark.length + 1))
  match natural? (whole ++ part), exponent with
  | some digits, some power => some (digits, power - part.length)
  | _, _ => none

/-- The double that a text without blanks and sign spells. -/
def unsignedDouble? (negative : Bool) (text : List Char) : Option Double :=
  let word := text.map Char.toLower
  if word == "inf".toList || word == "infinity".toList then some (.infinite negative)
  else if word == "nan".toList then some .notANumber
  else (decimal? text).map fun (digits, power) => Double.ofDecimal negative digits power

def double? (text : List Char) : Option Double :=
  let trimmed := ((text.map plainChar).dropWhile isMargin).reverse.dropWhile isMargin
  let (negative, body) := splitSign trimmed.reverse
  unsignedDouble? negative body

end RenderProbe.Decimal
