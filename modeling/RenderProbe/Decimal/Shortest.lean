import RenderProbe.Decimal.Double

/-!
# Shortest decimal text

A double as the fewest digits that read back as it, and of those the nearest to it. The text is
positional from `0.0001` to below `10^16` and has an exponent elsewhere.
-/

namespace RenderProbe.Decimal.Double

/-- The numbers that read back as a double, as numerators over one denominator. -/
structure Interval where
  low : Nat
  value : Nat
  high : Nat
  denominator : Nat
  /-- Whether the ends belong to it. -/
  closed : Bool
  deriving DecidableEq, Inhabited

/-- The interval of a positive double; below a power of two the neighbour is nearer. -/
def interval (mantissa : Nat) (exponent : Int) : Interval :=
  let below := if mantissa == mantissaBound / 2 && leastExponent < exponent then 1 else 2
  let (unit, denominator) :=
    if exponent < 0 then (1, 4 * Nat.pow 2 exponent.natAbs) else (Nat.pow 2 exponent.natAbs, 4)
  { low := (4 * mantissa - below) * unit
    value := 4 * mantissa * unit
    high := (4 * mantissa + 2) * unit
    denominator
    closed := mantissa % 2 == 0 }

/-- Whether `digits · num / den` lies in an interval. -/
def Interval.holds (interval : Interval) (digits num den : Nat) : Bool :=
  let point := digits * num * interval.denominator
  if interval.closed then interval.low * den ≤ point && point ≤ interval.high * den
  else interval.low * den < point && point < interval.high * den

/-- How far `digits · num / den` is from the value of an interval, in a unit that only the interval
and the grid decide. -/
def Interval.distance (interval : Interval) (digits num den : Nat) : Nat :=
  let point := digits * num * interval.denominator
  let value := interval.value * den
  if point < value then value - point else point - value

/-- The point of the grid of `10^power` that reads back and is nearest, if one of the two around the
value does. Points further away need not be tried, as the value lies inside its interval. -/
def gridPoint? (interval : Interval) (power : Int) : Option Nat :=
  let (num, den) := if power < 0 then (1, Nat.pow 10 power.natAbs) else (Nat.pow 10 power.natAbs, 1)
  let down := interval.value * den / (interval.denominator * num)
  let up := down + 1
  let near := interval.distance down num den
  let far := interval.distance up num den
  match interval.holds down num den, interval.holds up num den with
  | true, true =>
    if near < far || (near == far && down % 2 == 0) then some down else some up
  | true, false => some down
  | false, true => some up
  | false, false => none

/-- The first grid, from `power` on towards finer ones, with a point that reads back. Seventeen
digits always suffice, so the number of rounds is no limit. -/
def firstPoint (interval : Interval) (power : Int) : Nat → Nat × Int
  | 0 => (0, power)
  | rounds + 1 => match gridPoint? interval power with
    | some digits => if digits == 0 then firstPoint interval (power - 1) rounds else (digits, power)
    | none => firstPoint interval (power - 1) rounds

/-- Zeros at the end of digits moved into the power. -/
def trimZeros : Nat → Nat → Int → Nat × Int
  | 0, digits, power => (digits, power)
  | rounds + 1, digits, power =>
    if digits % 10 == 0 && digits != 0 then trimZeros rounds (digits / 10) (power + 1)
    else (digits, power)

/-- The shortest digits of a positive double and the power of ten they count. The search starts on a
grid beyond the value, so no coarser one is left out. -/
def shortest (mantissa : Nat) (exponent : Int) : Nat × Int :=
  let interval := interval mantissa exponent
  let whole := interval.value / interval.denominator
  let start : Int :=
    if whole == 0 then 1 - (digitCount (interval.denominator / interval.value) : Int) + 1
    else digitCount whole
  let (digits, power) := firstPoint interval start 22
  trimZeros 400 digits power

/-! ## Text -/

/-- Powers of ten above which, and from which down, a text has an exponent. -/
def positionalBounds : Int × Int :=
  (16, -4)

/-- The exponent of a text, with a sign and at least two digits. -/
def exponentText (power : Int) : List Char :=
  let digits := Nat.toDigits 10 power.natAbs
  'e' :: (if power < 0 then '-' else '+') :: (if digits.length < 2 then '0' :: digits else digits)

/-- Digits with the point after `point` of them, zeros filled in. -/
def positional (digits : List Char) (point : Int) : List Char :=
  if point ≤ 0 then '0' :: '.' :: List.replicate point.natAbs '0' ++ digits
  else
    let count := point.toNat
    if digits.length ≤ count then
      digits ++ List.replicate (count - digits.length) '0' ++ ['.', '0']
    else digits.take count ++ '.' :: digits.drop count

/-- Digits with the point after the first and an exponent. -/
def scientific (digits : List Char) (point : Int) : List Char :=
  let head := digits.take 1
  let tail := digits.drop 1
  head ++ (if tail.isEmpty then [] else '.' :: tail) ++ exponentText (point - 1)

def toText : Double → String
  | notANumber => "nan"
  | infinite negative => if negative then "-inf" else "inf"
  | finite negative mantissa exponent =>
    let body :=
      if mantissa == 0 then ['0', '.', '0']
      else
        let (number, power) := shortest mantissa exponent
        let digits := Nat.toDigits 10 number
        let point := (digits.length : Int) + power
        if point ≤ positionalBounds.2 || positionalBounds.1 < point then scientific digits point
        else positional digits point
    String.ofList (if negative then '-' :: body else body)

end RenderProbe.Decimal.Double
