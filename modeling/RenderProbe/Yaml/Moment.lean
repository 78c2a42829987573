import RenderProbe.Yaml.Tag

/-!
# Dates

A date with an optional time and an optional offset from universal time, as written, and whether
there is such a moment.

* `moment?`: the parts of a written moment.
* `checkMoment`: the fault of a moment that does not exist.
-/

namespace RenderProbe.Yaml

/-- How far a time is ahead of universal time, or behind it. -/
structure Offset where
  behind : Bool
  hours : Nat
  minutes : Nat
  deriving DecidableEq, Inhabited

/-- A time of a day. -/
structure Clock where
  hour : Nat
  minute : Nat
  second : Nat
  /-- The offset, if one is written in digits. -/
  offset : Option Offset := none
  deriving DecidableEq, Inhabited

/-- A date, possibly with a time. -/
structure Moment where
  year : Nat
  month : Nat
  day : Nat
  clock : Option Clock := none
  deriving DecidableEq, Inhabited

/-! ## Reading -/

/-- Between `least` and `most` digits at the front of a text, as many as there are. -/
def digitsUpTo (least most : Nat) (text : List Char) : Option (Nat × List Char) :=
  let digits := (text.take most).takeWhile Char.isDigit
  if digits.length < least then none else some (numberOf digits, text.drop digits.length)

/-- Digits after a character. -/
def digitsAfter (c : Char) (least most : Nat) : List Char → Option (Nat × List Char)
  | d :: rest => if c == d then digitsUpTo least most rest else none
  | [] => none

/-- An offset in hours, or in hours and minutes, to the end of the text. -/
def offset? : List Char → Option Offset
  | sign :: rest =>
    if sign != '-' && sign != '+' then none
    else match digitsUpTo 1 2 rest with
      | some (hours, []) => some { behind := sign == '-', hours, minutes := 0 }
      | some (hours, afterHours) => match digitsAfter ':' 2 2 afterHours with
        | some (minutes, []) => some { behind := sign == '-', hours, minutes }
        | _ => none
      | none => none
  | [] => none

/-- What may follow a time: nothing, the letter for no offset, or an offset. -/
def zone? (text : List Char) : Option (Option Offset) :=
  match text.dropWhile fun c => c == ' ' || c == '\t' with
  | [] => if text.isEmpty then some none else none
  | ['Z'] => some none
  | body => (offset? body).map some

/-- The text after what separates a time from its date. -/
def afterDate? : List Char → Option (List Char)
  | 'T' :: rest | 't' :: rest => some rest
  | text =>
    let rest := text.dropWhile fun c => c == ' ' || c == '\t'
    if rest.length < text.length then some rest else none

/-- The time behind a date. Fractions of seconds are passed over. -/
def clock? (text : List Char) : Option Clock := do
  let start ← afterDate? text
  let (hour, afterHour) ← digitsUpTo 1 2 start
  let (minute, afterMinute) ← digitsAfter ':' 2 2 afterHour
  let (second, afterSecond) ← digitsAfter ':' 2 2 afterMinute
  let rest := match afterSecond with
    | '.' :: fraction => fraction.dropWhile Char.isDigit
    | rest => rest
  let offset ← zone? rest
  return { hour, minute, second, offset }

/-- A text without the line break at its end, which the end of a pattern passes over. -/
def withoutLastBreak (text : List Char) : List Char :=
  if text.getLast? == some '\n' then text.dropLast else text

/-- The moment that a text spells. -/
def moment? (text : List Char) : Option Moment := do
  let (year, afterYear) ← digitsUpTo 4 4 (withoutLastBreak text)
  let (month, afterMonth) ← digitsAfter '-' 1 2 afterYear
  let (day, rest) ← digitsAfter '-' 1 2 afterMonth
  if rest.isEmpty then return { year, month, day }
  else return { year, month, day, clock := some (← clock? rest) }

def isMoment (text : List Char) : Bool :=
  (moment? text).any fun moment => moment.clock.isSome || (withoutLastBreak text).length == 10

/-! ## Checking -/

def daysIn (year month : Nat) : Nat :=
  if month == 2 then
    if year % 4 == 0 && (year % 100 != 0 || year % 400 == 0) then 29 else 28
  else if month == 4 || month == 6 || month == 9 || month == 11 then 30
  else 31

def Offset.seconds (offset : Offset) : Int :=
  let seconds : Int := (offset.hours * 60 + offset.minutes) * 60
  if offset.behind then -seconds else seconds

/-- A span of time as messages show it: in days and in seconds of the last day. -/
def spanText (seconds : Int) : String :=
  let days := seconds.fdiv 86400
  let left := seconds.fmod 86400
  let parts := (if days == 0 then [] else [s!"days={days}"])
    ++ (if left == 0 then [] else [s!"seconds={left}"])
  "datetime.timedelta(" ++ ", ".intercalate parts ++ ")"

/-- What is said about an offset of a day or more. -/
def offsetMessage (offset : Offset) : String :=
  "offset must be a timedelta strictly between -timedelta(hours=24) and timedelta(hours=24), "
    ++ "not " ++ spanText offset.seconds ++ "."

/-- The fault of a date that the calendar does not have. -/
def checkDate (moment : Moment) : Except Fault Unit :=
  if moment.year == 0 then .error "year 0 is out of range"
  else if moment.month == 0 || 12 < moment.month then .error "month must be in 1..12"
  else if moment.day == 0 || daysIn moment.year moment.month < moment.day then
    .error "day is out of range for month"
  else .ok ()

/-- The fault of a time that no day has. -/
def checkClock (clock : Clock) : Except Fault Unit :=
  if 23 < clock.hour then .error "hour must be in 0..23"
  else if 59 < clock.minute then .error "minute must be in 0..59"
  else if 59 < clock.second then .error "second must be in 0..59"
  else .ok ()

/-- The fault of an offset that is a day or more. -/
def checkOffset (offset : Offset) : Except Fault Unit :=
  if 86400 ≤ offset.seconds.natAbs then .error (offsetMessage offset) else .ok ()

/-- The fault of a moment that does not exist; an offset is looked at before the date. -/
def checkMoment (moment : Moment) : Except Fault Unit :=
  match moment.clock with
  | none => checkDate moment
  | some clock => do
    if let some offset := clock.offset then checkOffset offset
    checkDate moment
    checkClock clock

end RenderProbe.Yaml
