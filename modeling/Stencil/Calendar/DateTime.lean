import Stencil.Calendar.Date
/-!
# Times of a day

A date with a clock time to the nanosecond and no zone. The second 60 is a leap second; it has the
time stamp of the second before it.
-/
namespace Stencil.Calendar

structure Time where
  hour : Nat
  minute : Nat
  second : Nat
  nanosecond : Nat
  hour_valid : hour < 24
  minute_valid : minute < 60
  second_valid : second ≤ 60
  nanosecond_valid : nanosecond < 1000000000
  deriving DecidableEq, Repr

structure DateTime where
  date : Date
  time : Time
  deriving DecidableEq, Repr

namespace Time

def ofParts? (hour minute second nanosecond : Nat) : Option Time :=
  if h : hour < 24 ∧ minute < 60 ∧ second ≤ 60 ∧ nanosecond < 1000000000 then
    some ⟨hour, minute, second, nanosecond, h.1, h.2.1, h.2.2.1, h.2.2.2⟩
  else none

/-- The hour on a dial of twelve. -/
def hour12 (t : Time) : Nat := if t.hour % 12 = 0 then 12 else t.hour % 12

def isAfternoon (t : Time) : Bool := 12 ≤ t.hour

def secondOfDay (t : Time) : Nat := t.hour * 3600 + t.minute * 60 + min t.second 59

/-- The fraction of a second in three, six or nine digits, as many as it needs, after a point; a
whole second has none. -/
def fractionText (t : Time) : List Char :=
  if t.nanosecond = 0 then []
  else if t.nanosecond % 1000000 = 0 then '.' :: Text.zeroPadded 3 (t.nanosecond / 1000000)
  else if t.nanosecond % 1000 = 0 then '.' :: Text.zeroPadded 6 (t.nanosecond / 1000)
  else '.' :: Text.zeroPadded 9 t.nanosecond

def clockText (t : Time) : List Char :=
  Text.zeroPadded 2 t.hour ++ [':'] ++ Text.zeroPadded 2 t.minute ++ [':'] ++
    Text.zeroPadded 2 t.second

/-- Reads the digits behind the point of a second as nanoseconds. -/
def fraction? (s : List Char) : Option Nat :=
  if s.isEmpty || 9 < s.length || !s.all Char.isDigit then none
  else some (Decimal.digitsValue s * Nat.pow 10 (9 - s.length))

/-- Reads `hour:minute:second`, perhaps with a fraction. -/
def parse? (s : List Char) : Option Time := do
  match Text.splitOn ':' s with
  | [hour, minute, second] =>
    let (whole, nanosecond) ←
      match Text.splitAtWord? ['.'] second with
      | some (whole, fraction) => (fraction? fraction).map fun n => (whole, n)
      | none => some (second, 0)
    let hour ← Decimal.integer? hour
    let minute ← Decimal.integer? minute
    let second ← Decimal.integer? whole
    ofParts? hour.toNat minute.toNat second.toNat nanosecond
  | _ => none

end Time

namespace DateTime

/-- Seconds from the start of 1 January 1970. -/
def timestamp (t : DateTime) : Int := t.date.dayNumber * 86400 + t.time.secondOfDay

/-- The date, a space, the clock time and the fraction of the second, if any. -/
def text (t : DateTime) : List Char :=
  t.date.isoText ++ [' '] ++ t.time.clockText ++ t.time.fractionText

/-- The date, a `T` and the clock time to the second. -/
def isoText (t : DateTime) : List Char := t.date.isoText ++ ['T'] ++ t.time.clockText

/-- The time a number of milliseconds after the start of 1 January 1970. -/
def ofMilliseconds? (n : Int) : Option DateTime := do
  let seconds := n / 1000
  let secondOfDay := (seconds % 86400).toNat
  let date ← Date.ofDayNumber? (seconds / 86400)
  let time ← Time.ofParts? (secondOfDay / 3600) (secondOfDay / 60 % 60) (secondOfDay % 60)
    ((n % 1000).toNat * 1000000)
  some ⟨date, time⟩

/-- Reads a date and a clock time joined by `T`. -/
def parse? (s : List Char) : Option DateTime := do
  let (date, time) ← Text.splitAtWord? ['T'] s
  some ⟨← Date.parse? date, ← Time.parse? time⟩

end DateTime
end Stencil.Calendar
