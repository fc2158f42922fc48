import SupplyTrail.Text.Digits
/-!
# Timestamps

Seconds since the start of 1970, shown as a date and time of the proleptic Gregorian calendar in UTC.  Years are counted
from March, so that a leap day is the last day of its year; four hundred of them always have the same number of days.
Beyond the last day of the year 262142 a timestamp is shown as a plain number.
-/
namespace SupplyTrail.Calendar

structure Date where
  year : Nat
  month : Nat
  day : Nat
  deriving DecidableEq, Repr

/-- The days of four hundred years. -/
def daysPerEra : Nat := 146097

/-- The days from the first of March of the year 0 to the start of 1970. -/
def epochDay : Nat := 719468

/-- The date of a day counted from the start of 1970. -/
def dateOfDay (days : Nat) : Date :=
  let z := days + epochDay
  let era := z / daysPerEra
  let dayOfEra := z % daysPerEra
  let yearOfEra := (dayOfEra - dayOfEra / 1460 + dayOfEra / 36524 - dayOfEra / 146096) / 365
  let dayOfYear := dayOfEra - (365 * yearOfEra + yearOfEra / 4 - yearOfEra / 100)
  let marchMonth := (5 * dayOfYear + 2) / 153
  let day := dayOfYear - (153 * marchMonth + 2) / 5 + 1
  let month := if marchMonth < 10 then marchMonth + 3 else marchMonth - 9
  ⟨yearOfEra + 400 * era + (if month ≤ 2 then 1 else 0), month, day⟩

/-- The last year that dates are shown for. -/
def lastYear : Nat := 262142

/-- Four digits, or a sign and as many as it takes. -/
def yearChars (year : Nat) : List Char :=
  if year < 10000 then Text.decimalPadded 4 year else '+' :: Text.decimalChars year

/-- The date and time of a timestamp, with the offset of UTC. -/
def dateTimeChars (seconds : Nat) : List Char :=
  let date := dateOfDay (seconds / 86400)
  let s := seconds % 86400
  yearChars date.year ++ '-' :: Text.decimalPadded 2 date.month ++ '-' :: Text.decimalPadded 2 date.day ++
    'T' :: Text.decimalPadded 2 (s / 3600) ++ ':' :: Text.decimalPadded 2 (s / 60 % 60) ++
    ':' :: Text.decimalPadded 2 (s % 60) ++ ['+', '0', '0', ':', '0', '0']

def format (time : UInt64) : String :=
  if (dateOfDay (time.toNat / 86400)).year ≤ lastYear then String.ofList (dateTimeChars time.toNat)
  else Text.decimal time.toNat

end SupplyTrail.Calendar
