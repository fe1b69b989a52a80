import Stencil.Calendar.DateTime
import Stencil.Text.Blank
/-!
# Date patterns

A pattern is literal text with fields such as `%d` or `%H`; a field may carry a fill between the
percent sign and its letter. A pattern is either well formed as a whole or no pattern at all, and a
field of the clock has no text on a date alone.
-/
namespace Stencil.Calendar

open Text (Fill)

/-- The fields that are numbers. -/
inductive NumberField where
  | year | century | yearOfCentury | isoYear | isoYearOfCentury | quarter | month | day
  | weekFromSunday | weekFromMonday | isoWeek | daysFromSunday | weekday | dayOfYear
  | hour | hour12 | minute | second | nanosecond | timestamp
  deriving DecidableEq, Repr

/-- The fields that are words or fractions; `zone` stands for all that tell of a time zone. -/
inductive WordField where
  | shortMonth | longMonth | shortWeekday | longWeekday | lowerHalfDay | upperHalfDay
  | fraction | fractionOf (digits : Nat) (point : Bool) | zone
  deriving DecidableEq, Repr

inductive PatternItem where
  | literal (c : Char)
  | number (field : NumberField) (fill : Fill)
  | word (field : WordField)
  deriving DecidableEq, Repr

abbrev Pattern := List PatternItem

namespace Pattern

def zeros (field : NumberField) : PatternItem := .number field .zeros

def dateOfTwoDigits : Pattern :=
  [zeros .month, .literal '/', zeros .day, .literal '/', zeros .yearOfCentury]

def clock : Pattern :=
  [zeros .hour, .literal ':', zeros .minute, .literal ':', zeros .second]

/-- What a single letter behind the percent sign stands for. -/
def ofLetter? : Char → Option Pattern
  | 'A' => some [.word .longWeekday]
  | 'B' => some [.word .longMonth]
  | 'C' => some [zeros .century]
  | 'D' => some dateOfTwoDigits
  | 'F' => some [zeros .year, .literal '-', zeros .month, .literal '-', zeros .day]
  | 'G' => some [zeros .isoYear]
  | 'H' => some [zeros .hour]
  | 'I' => some [zeros .hour12]
  | 'M' => some [zeros .minute]
  | 'P' => some [.word .lowerHalfDay]
  | 'R' => some [zeros .hour, .literal ':', zeros .minute]
  | 'S' => some [zeros .second]
  | 'T' => some clock
  | 'U' => some [zeros .weekFromSunday]
  | 'V' => some [zeros .isoWeek]
  | 'W' => some [zeros .weekFromMonday]
  | 'X' => some clock
  | 'Y' => some [zeros .year]
  | 'Z' => some [.word .zone]
  | 'a' => some [.word .shortWeekday]
  | 'b' => some [.word .shortMonth]
  | 'c' => some ([.word .shortWeekday, .literal ' ', .word .shortMonth, .literal ' ',
      .number .day .spaces, .literal ' '] ++ clock ++ [.literal ' ', zeros .year])
  | 'd' => some [zeros .day]
  | 'e' => some [.number .day .spaces]
  | 'f' => some [zeros .nanosecond]
  | 'g' => some [zeros .isoYearOfCentury]
  | 'h' => some [.word .shortMonth]
  | 'j' => some [zeros .dayOfYear]
  | 'k' => some [.number .hour .spaces]
  | 'l' => some [.number .hour12 .spaces]
  | 'm' => some [zeros .month]
  | 'n' => some [.literal '\n']
  | 'p' => some [.word .upperHalfDay]
  | 'q' => some [.number .quarter .none]
  | 'r' => some [zeros .hour12, .literal ':', zeros .minute, .literal ':', zeros .second,
      .literal ' ', .word .upperHalfDay]
  | 's' => some [.number .timestamp .none]
  | 't' => some [.literal '\t']
  | 'u' => some [.number .weekday .none]
  | 'v' => some [.number .day .spaces, .literal '-', .word .shortMonth, .literal '-', zeros .year]
  | 'w' => some [.number .daysFromSunday .none]
  | 'x' => some dateOfTwoDigits
  | 'y' => some [zeros .yearOfCentury]
  | 'z' => some [.word .zone]
  | '+' => some [.word .zone]
  | '%' => some [.literal '%']
  | _ => none

/-- A fill goes with a field that is one number. -/
def refill (fill : Fill) : Pattern → Option Pattern
  | [.number field _] => some [.number field fill]
  | _ => none

def fillOf? : Char → Option Fill
  | '-' => some .none
  | '0' => some .zeros
  | '_' => some .spaces
  | _ => none

/-- The fields of more than one letter. -/
def longFields : List (String × WordField) := [
  (":::z", .zone), ("::z", .zone), (":z", .zone), ("#z", .zone), (".f", .fraction),
  (".3f", .fractionOf 3 true), (".6f", .fractionOf 6 true), (".9f", .fractionOf 9 true),
  ("3f", .fractionOf 3 false), ("6f", .fractionOf 6 false), ("9f", .fractionOf 9 false)]

def longField? (s : List Char) : Option (Pattern × List Char) :=
  longFields.findSome? fun (word, field) =>
    (Text.dropWord? word.toList s).map fun rest => ([.word field], rest)

/-- A field of one letter, perhaps with a fill before it. -/
def shortField? : List Char → Option (Pattern × List Char)
  | [] => none
  | c :: rest =>
    match fillOf? c, rest with
    | some _, [] => none
    | some fill, letter :: rest =>
      ((ofLetter? letter).bind (refill fill)).map fun items => (items, rest)
    | none, rest => (ofLetter? c).map fun items => (items, rest)

/-- The field behind a percent sign and the text after it. -/
def field? (s : List Char) : Option (Pattern × List Char) := (longField? s).or (shortField? s)

theorem length_of_longField? {s rest : List Char} {items : Pattern}
    (h : longField? s = some (items, rest)) : rest.length < s.length := by
  obtain ⟨⟨word, field⟩, hmem, hword⟩ := List.exists_of_findSome?_eq_some h
  simp only [Option.map_eq_some_iff, Prod.mk.injEq, Text.dropWord?_eq_some_iff] at hword
  obtain ⟨rest', rfl, _, rfl⟩ := hword
  have hpos : ∀ entry ∈ longFields, 0 < entry.1.toList.length := by decide
  have : 0 < word.toList.length := hpos _ hmem
  simp only [List.length_append]
  omega

theorem length_of_shortField? {s rest : List Char} {items : Pattern}
    (h : shortField? s = some (items, rest)) : rest.length < s.length := by
  unfold shortField? at h
  split at h
  · simp at h
  · split at h
    · simp at h
    all_goals
      simp only [Option.map_eq_some_iff, Prod.mk.injEq] at h
      obtain ⟨_, _, _, rfl⟩ := h
      simp only [List.length_cons]
      omega

theorem length_of_field? {s rest : List Char} {items : Pattern}
    (h : field? s = some (items, rest)) : rest.length < s.length := by
  simp only [field?, Option.or_eq_some_iff] at h
  rcases h with h | ⟨_, h⟩
  · exact length_of_longField? h
  · exact length_of_shortField? h

/-- Reads a pattern; no pattern has a percent sign without a field. -/
def parse? (s : List Char) : Option Pattern :=
  match s with
  | [] => some []
  | '%' :: rest =>
    match h : field? rest with
    | none => none
    | some (items, more) =>
      have : more.length < rest.length := length_of_field? h
      (parse? more).map (items ++ ·)
  | c :: rest => (parse? rest).map (.literal c :: ·)
termination_by s.length
decreasing_by all_goals simp; try omega

/-- Two digits, the second always shown. A century above 99 has for its first digit the character
as many places behind the digit 0. -/
def twoDigits (fill : Fill) (n : Nat) : List Char :=
  let tens :=
    match n / 10, fill with
    | 0, .none => []
    | 0, .spaces => [' ']
    | tens, _ => [Char.ofNat ('0'.toNat + tens)]
  tens ++ [Char.ofNat ('0'.toNat + n % 10)]

def dateField (fill : Fill) (d : Date) : NumberField → Option (List Char)
  | .year => some (Date.yearText fill d.year)
  | .century => some (twoDigits fill (d.year / 100 % 256).toNat)
  | .yearOfCentury => some (twoDigits fill (d.year % 100).toNat)
  | .isoYear => some (Date.yearText fill d.isoWeek.1)
  | .isoYearOfCentury => some (twoDigits fill (d.isoWeek.1 % 100).toNat)
  | .quarter => some (Text.decimalDigits d.quarter)
  | .month => some (twoDigits fill d.month)
  | .day => some (twoDigits fill d.day)
  | .weekFromSunday => some (twoDigits fill d.weekFromSunday)
  | .weekFromMonday => some (twoDigits fill d.weekFromMonday)
  | .isoWeek => some (twoDigits fill d.isoWeek.2)
  | .daysFromSunday => some (Text.decimalDigits d.fromSunday)
  | .weekday => some (Text.decimalDigits (d.fromMonday + 1))
  | .dayOfYear => some (Text.numberText fill 3 false d.dayOfYear)
  | _ => none

def timeField (fill : Fill) (t : Time) : NumberField → Option (List Char)
  | .hour => some (twoDigits fill t.hour)
  | .hour12 => some (twoDigits fill t.hour12)
  | .minute => some (twoDigits fill t.minute)
  | .second => some (twoDigits fill t.second)
  | .nanosecond => some (Text.numberText fill 9 false t.nanosecond)
  | _ => none

def numberField (fill : Fill) (d : Date) (time? : Option Time) (field : NumberField) :
    Option (List Char) :=
  match field, time? with
  | .timestamp, some t => some (Text.numberText fill 9 false (DateTime.mk d t).timestamp)
  | _, some t => dateField fill d field <|> timeField fill t field
  | _, none => dateField fill d field

def wordField (d : Date) (time? : Option Time) (field : WordField) : Option (List Char) :=
  match field, time? with
  | .shortMonth, _ => some (d.monthName.toList.take 3)
  | .longMonth, _ => some d.monthName.toList
  | .shortWeekday, _ => some (d.weekdayName.toList.take 3)
  | .longWeekday, _ => some d.weekdayName.toList
  | .lowerHalfDay, some t => some (if t.isAfternoon then ['p', 'm'] else ['a', 'm'])
  | .upperHalfDay, some t => some (if t.isAfternoon then ['P', 'M'] else ['A', 'M'])
  | .fraction, some t => some t.fractionText
  | .fractionOf digits point, some t =>
    some ((if point then ['.'] else []) ++ (Text.zeroPadded 9 t.nanosecond).take digits)
  | _, _ => none

def itemText (d : Date) (time? : Option Time) : PatternItem → Option (List Char)
  | .literal c => some [c]
  | .number field fill => numberField fill d time? field
  | .word field => wordField d time? field

/-- The text of a date, with or without a clock time; none if a field has none. -/
def text? (pattern : Pattern) (d : Date) (time? : Option Time) : Option (List Char) :=
  (pattern.mapM (itemText d time?)).map List.flatten

end Pattern

/-- Writes a date by a pattern, if the pattern is well formed and every field has a text. -/
def formatted? (pattern : List Char) (d : Date) (time? : Option Time) : Option (List Char) := do
  (← Pattern.parse? pattern).text? d time?

end Stencil.Calendar
