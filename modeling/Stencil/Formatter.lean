import Stencil.Value.Basic
import Stencil.Calendar.Pattern
/-!
# Formatters

A formatter writes the values of one type, perhaps as an expression's `format` option asks.
-/
namespace Stencil

abbrev Formatter := Value → Option String → String

structure Formatters where
  find? : ValueType → Option Formatter

/-- Dates and times by a pattern; without one, in ISO form. A pattern that is malformed, or asks for
a field that the value lacks, gives the value's own text, as does any other value. -/
def dateFormatter : Formatter
  | .date d, some pattern =>
    String.ofList ((Calendar.formatted? pattern.toList d none).getD d.isoText)
  | .dateTime t, some pattern =>
    String.ofList ((Calendar.formatted? pattern.toList t.date (some t.time)).getD t.text)
  | .date d, none => String.ofList d.isoText
  | .dateTime t, none => String.ofList t.isoText
  | v, _ => v.scalarText

namespace Formatters

def none : Formatters := ⟨fun _ => .none⟩

def register (fs : Formatters) (type : ValueType) (f : Formatter) : Formatters :=
  ⟨fun t => if t = type then some f else fs.find? t⟩

/-- Dates and times have the formatter by patterns. -/
def standard : Formatters :=
  (none.register .date dateFormatter).register .dateTime dateFormatter

instance : Inhabited Formatters := ⟨standard⟩

/-- The formatter that a value is written by, if it has one. -/
def for? (fs : Formatters) (v : Value) : Option Formatter := v.type?.bind fs.find?

def text (fs : Formatters) (v : Value) (format : Option String) : String :=
  match fs.for? v with
  | some f => f v format
  | .none => v.scalarText

end Formatters
end Stencil
