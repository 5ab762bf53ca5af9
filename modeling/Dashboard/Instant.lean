/-!
Points in time as text: the date and time in UTC, to the millisecond. The date follows from the
number of days since the beginning of March of the year zero, in cycles of 400 years.
-/
namespace Dashboard.Instant

structure Date where
  year : Nat
  month : Nat
  day : Nat
  deriving DecidableEq, Repr

/-- Days from the first of March of the year zero to the first of January 1970. -/
def daysBefore1970 : Nat := 719468

/-- The date of a day since the beginning of 1970; years are counted from March. -/
def Date.ofDays (days : Nat) : Date :=
  let all := days + daysBefore1970
  let cycle := all / 146097
  let dayOfCycle := all % 146097
  let yearOfCycle :=
    (dayOfCycle - dayOfCycle / 1460 + dayOfCycle / 36524 - dayOfCycle / 146096) / 365
  let dayOfYear := dayOfCycle - (365 * yearOfCycle + yearOfCycle / 4 - yearOfCycle / 100)
  let month := (5 * dayOfYear + 2) / 153
  let day := dayOfYear - (153 * month + 2) / 5 + 1
  let year := yearOfCycle + 400 * cycle
  if month < 10 then ⟨year, month + 3, day⟩ else ⟨year + 1, month - 9, day⟩

/-- At least so many digits, with zeros in front. -/
def padded (width n : Nat) : String :=
  let digits := Nat.toDigits 10 n
  String.ofList (List.replicate (width - digits.length) '0' ++ digits)

/-- The text of a point in time, given in milliseconds since the beginning of 1970. -/
def text (milliseconds : Nat) : String :=
  let seconds := milliseconds / 1000
  let date := Date.ofDays (seconds / 86400)
  padded 4 date.year ++ "-" ++ padded 2 date.month ++ "-" ++ padded 2 date.day ++ "T" ++
    padded 2 (seconds / 3600 % 24) ++ ":" ++ padded 2 (seconds / 60 % 60) ++ ":" ++
    padded 2 (seconds % 60) ++ "." ++ padded 3 (milliseconds % 1000) ++ "Z"

end Dashboard.Instant
