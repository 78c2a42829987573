/-!
# Time stamps

The stamp of a log record: the date and time of a number of seconds after the start of 1970, with
milliseconds.
-/

namespace RenderProbe.Command

/-- A number with at least the given count of digits. -/
def padded (width n : Nat) : String :=
  let digits := Nat.toDigits 10 n
  String.ofList (List.replicate (width - digits.length) '0' ++ digits)

/-- The year, month and day of a number of days after the start of 1970. Years are counted from
March, so that a leap day ends its year, in eras of four hundred years. -/
def civilDate (days : Nat) : Nat × Nat × Nat :=
  let shifted := days + 719468
  let era := shifted / 146097
  let dayOfEra := shifted % 146097
  let yearOfEra :=
    (dayOfEra - dayOfEra / 1460 + dayOfEra / 36524 - dayOfEra / 146096) / 365
  let dayOfYear := dayOfEra - (365 * yearOfEra + yearOfEra / 4 - yearOfEra / 100)
  let shiftedMonth := (5 * dayOfYear + 2) / 153
  let day := dayOfYear - (153 * shiftedMonth + 2) / 5 + 1
  let month := if shiftedMonth < 10 then shiftedMonth + 3 else shiftedMonth - 9
  let year := yearOfEra + era * 400
  (if month ≤ 2 then year + 1 else year, month, day)

def stampOf (seconds milliseconds : Nat) : String :=
  let (year, month, day) := civilDate (seconds / 86400)
  let rest := seconds % 86400
  s!"{padded 4 year}-{padded 2 month}-{padded 2 day} "
    ++ s!"{padded 2 (rest / 3600)}:{padded 2 (rest / 60 % 60)}:{padded 2 (rest % 60)},"
    ++ padded 3 milliseconds

/-- The day after the last of February in a leap year. -/
example : civilDate 11017 = (2000, 3, 1) := by decide

end RenderProbe.Command
