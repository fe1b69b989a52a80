import Stencil.Text.Padding
import Stencil.Decimal.Reading
/-!
# Dates

Days of the Gregorian calendar, extended to every year, with their number from 1 January 1970, their
place in the week and the year, and their ISO text.
-/
namespace Stencil.Calendar

def isLeap (year : Int) : Bool :=
  year % 4 = 0 && (year % 100 ≠ 0 || year % 400 = 0)

def daysInMonth (year : Int) (month : Nat) : Nat :=
  match month with
  | 2 => if isLeap year then 29 else 28
  | 4 | 6 | 9 | 11 => 30
  | _ => 31

structure Date where
  year : Int
  month : Nat
  day : Nat
  month_valid : 1 ≤ month ∧ month ≤ 12
  day_valid : 1 ≤ day ∧ day ≤ daysInMonth year month
  deriving DecidableEq, Repr

namespace Date

def ofParts? (year : Int) (month day : Nat) : Option Date :=
  if h : (1 ≤ month ∧ month ≤ 12) ∧ 1 ≤ day ∧ day ≤ daysInMonth year month then
    some ⟨year, month, day, h.1, h.2⟩
  else none

/-- The days of the year before the first of `month`. -/
def daysBeforeMonth (year : Int) (month : Nat) : Nat :=
  ((List.range month).drop 1).foldl (fun days m => days + daysInMonth year m) 0

/-- The days between 1 January 1970 and 1 January of `year`. -/
def daysBeforeYear (year : Int) : Int :=
  let y := year - 1
  365 * (year - 1970) + (y / 4 - 1969 / 4) - (y / 100 - 1969 / 100) + (y / 400 - 1969 / 400)

/-- The day's place in its year, from 1. -/
def dayOfYear (d : Date) : Nat := daysBeforeMonth d.year d.month + d.day

/-- The number of the day from 1 January 1970. -/
def dayNumber (d : Date) : Int := daysBeforeYear d.year + (d.dayOfYear - 1 : Nat)

/-- Days since the last Sunday. 1 January 1970 was a Thursday. -/
def fromSunday (d : Date) : Nat := ((d.dayNumber + 4) % 7).toNat

/-- Days since the last Monday. -/
def fromMonday (d : Date) : Nat := ((d.dayNumber + 3) % 7).toNat

def quarter (d : Date) : Nat := (d.month - 1) / 3 + 1

/-- The number of Sundays in the year up to this day. -/
def weekFromSunday (d : Date) : Nat := (d.dayOfYear + 6 - d.fromSunday) / 7

/-- The number of Mondays in the year up to this day. -/
def weekFromMonday (d : Date) : Nat := (d.dayOfYear + 6 - d.fromMonday) / 7

/-- Weeks start on Monday and belong to the year that holds their Thursday: the year and the number
of the week of this day. -/
def isoWeek (d : Date) : Int × Nat :=
  let thursday := d.dayOfYear + 3 - d.fromMonday
  let daysIn (year : Int) : Nat := if isLeap year then 366 else 365
  if d.dayOfYear + 3 < d.fromMonday + 1 then
    let last := d.dayOfYear + daysIn (d.year - 1) + 3 - d.fromMonday
    (d.year - 1, (last + 6) / 7)
  else if daysIn d.year < thursday then (d.year + 1, 1)
  else (d.year, (thursday + 6) / 7)

def monthNames : List String := [
  "January", "February", "March", "April", "May", "June", "July", "August", "September",
  "October", "November", "December"]

def weekdayNames : List String := [
  "Sunday", "Monday", "Tuesday", "Wednesday", "Thursday", "Friday", "Saturday"]

def monthName (d : Date) : String := monthNames.getD (d.month - 1) ""

def weekdayName (d : Date) : String := weekdayNames.getD d.fromSunday ""

/-- Four digits; a year outside 0 to 9999 has a sign and at least four digits. -/
def yearText (fill : Text.Fill) (year : Int) : List Char :=
  if 0 ≤ year ∧ year < 10000 then Text.numberText fill 4 false year
  else Text.numberText fill 5 true year

def isoText (d : Date) : List Char :=
  yearText .zeros d.year ++ ['-'] ++ Text.zeroPadded 2 d.month ++ ['-'] ++ Text.zeroPadded 2 d.day

/-- The month and the day of a day of the year, counted from 0. -/
def monthAndDay (year : Int) : Nat → Nat → Nat → Nat × Nat
  | 0, month, rest => (month, rest + 1)
  | left + 1, month, rest =>
    if rest < daysInMonth year month then (month, rest + 1)
    else monthAndDay year left (month + 1) (rest - daysInMonth year month)

/-- The year of a day number: the latest year that does not begin after it. A year has between 365
and 366 days, so the quotient by the length of 400 years is at most one year off. -/
def yearOfDayNumber (n : Int) : Int :=
  let guess := 1970 + n * 400 / 146097
  if n < daysBeforeYear guess then guess - 1
  else if daysBeforeYear (guess + 1) ≤ n then guess + 1
  else guess

/-- The date of a day number. -/
def ofDayNumber? (n : Int) : Option Date :=
  let year := yearOfDayNumber n
  let (month, day) := monthAndDay year 11 1 (n - daysBeforeYear year).toNat
  ofParts? year month day

/-- Reads `year-month-day`, the year with an optional sign. -/
def parse? (s : List Char) : Option Date := do
  let (sign, body) :=
    match s with
    | '-' :: rest => (-1, rest)
    | '+' :: rest => (1, rest)
    | _ => ((1 : Int), s)
  match Text.splitOn '-' body with
  | [year, month, day] =>
    let year ← Decimal.integer? year
    let month ← Decimal.integer? month
    let day ← Decimal.integer? day
    ofParts? (sign * year) month.toNat day.toNat
  | _ => none

end Date
end Stencil.Calendar
