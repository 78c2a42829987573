/-!
# Double precision numbers

Numbers `m · 2^e` with a mantissa of at most 53 bits, with infinities and the value that is no
number. A decimal number is rounded to the nearest of them, a tie to the even mantissa.
-/

namespace RenderProbe.Decimal

/-- A double precision number. -/
inductive Double where
  | finite (negative : Bool) (mantissa : Nat) (exponent : Int)
  | infinite (negative : Bool)
  | notANumber
  deriving DecidableEq, Inhabited

namespace Double

def leastExponent : Int :=
  -1074

def greatestExponent : Int :=
  971

/-- One more than the greatest mantissa. -/
def mantissaBound : Nat :=
  Nat.pow 2 53

/-- A quotient rounded to the nearest integer, a tie to the even one. All roundings go through here,
so a number is never rounded twice. -/
def roundedQuotient (numerator denominator : Nat) : Nat :=
  let quotient := numerator / denominator
  let twice := 2 * (numerator % denominator)
  if twice < denominator || (twice == denominator && quotient % 2 == 0) then quotient
  else quotient + 1

/-- The quotient in units of `2^exponent`, as a numerator and denominator. -/
def scaled (numerator denominator : Nat) (exponent : Int) : Nat × Nat :=
  if exponent < 0 then (numerator * Nat.pow 2 exponent.natAbs, denominator)
  else (numerator, denominator * Nat.pow 2 exponent.natAbs)

/-- The exponent at which a positive quotient has a mantissa of 53 bits, or the least one. The
logarithms are off by one at most, which a look at the first guess puts right. -/
def exponentFor (numerator denominator : Nat) : Int :=
  let guess : Int := (numerator.log2 : Int) - denominator.log2 - 52
  let (n, d) := scaled numerator denominator guess
  let fitted := if n / d < mantissaBound / 2 then guess - 1 else guess
  max fitted leastExponent

/-- The double nearest to a quotient. A mantissa that is rounded up to the bound is halved, and one
that the greatest exponent does not hold is infinite. -/
def ofQuotient (negative : Bool) (numerator denominator : Nat) : Double :=
  if numerator == 0 then .finite negative 0 0
  else
    let exponent := exponentFor numerator denominator
    let (n, d) := scaled numerator denominator exponent
    let mantissa := roundedQuotient n d
    let (mantissa, exponent) :=
      if mantissa == mantissaBound then (mantissaBound / 2, exponent + 1) else (mantissa, exponent)
    if greatestExponent < exponent then .infinite negative
    else .finite negative mantissa exponent

def digitCount (n : Nat) : Nat :=
  (Nat.toDigits 10 n).length

/-- The double nearest to `digits · 10^power`. Powers far outside the range are settled beforehand,
so that no number is built that is as long as its exponent is great. -/
def ofDecimal (negative : Bool) (digits : Nat) (power : Int) : Double :=
  let magnitude := (digitCount digits : Int) + power
  if digits == 0 || magnitude < -330 then .finite negative 0 0
  else if 310 < magnitude then .infinite negative
  else if power < 0 then ofQuotient negative digits (Nat.pow 10 power.natAbs)
  else ofQuotient negative (digits * Nat.pow 10 power.natAbs) 1

def isZero : Double → Bool
  | finite _ mantissa _ => mantissa == 0
  | _ => false

/-! ## Arithmetic -/

/-- The double nearest to `±magnitude · 2^exponent`. -/
def ofScaled (negative : Bool) (magnitude : Nat) (exponent : Int) : Double :=
  if exponent < 0 then ofQuotient negative magnitude (Nat.pow 2 exponent.natAbs)
  else ofQuotient negative (magnitude * Nat.pow 2 exponent.natAbs) 1

/-- The double nearest to a natural number, which may be beyond the greatest one. -/
def ofNat? (n : Nat) : Option Double :=
  match ofQuotient false n 1 with
  | infinite _ => none
  | x => some x

def neg : Double → Double
  | finite negative mantissa exponent => finite (!negative) mantissa exponent
  | infinite negative => infinite !negative
  | notANumber => notANumber

def isNegative : Double → Bool
  | finite negative _ _ | infinite negative => negative
  | notANumber => false

/-- The double nearest to a product. -/
def mul : Double → Double → Double
  | finite a m e, finite b n f => ofScaled (a != b) (m * n) (e + f)
  | notANumber, _ | _, notANumber => notANumber
  | x, y => if x.isZero || y.isZero then notANumber else infinite (x.isNegative != y.isNegative)

/-- A mantissa with its sign, in units of `2^unit`. -/
def signedIn (unit : Int) (negative : Bool) (mantissa : Nat) (exponent : Int) : Int :=
  let magnitude : Int := mantissa * Nat.pow 2 (exponent - unit).natAbs
  if negative then -magnitude else magnitude

/-- The double nearest to a sum. Both parts are brought to one unit, in which the sum is exact; a
sum of nothing has a minus only if both parts have one. -/
def add : Double → Double → Double
  | finite a m e, finite b n f =>
    let unit := min e f
    let total := signedIn unit a m e + signedIn unit b n f
    if total == 0 then finite (a && b) 0 0 else ofScaled (total < 0) total.natAbs unit
  | notANumber, _ | _, notANumber => notANumber
  | infinite a, infinite b => if a == b then infinite a else notANumber
  | infinite a, _ | _, infinite a => infinite a

end Double

end RenderProbe.Decimal
