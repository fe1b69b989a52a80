import Stencil.Table
import Stencil.Decimal.Text
import Stencil.Calendar.DateTime
/-!
# Values

What an attribute of a template can hold. A template value is a handle to an activation; a host
object shows its type, its text and its properties.
-/
namespace Stencil

/-- The place of an activation in its arena. -/
structure Handle where
  index : Nat
  deriving DecidableEq, Repr

def Handle.text (h : Handle) : String := "#" ++ toString h.index

mutual

inductive Value where
  | null
  | bool (b : Bool)
  | int (n : Int64)
  | float (x : Float)
  | text (s : String)
  | date (d : Calendar.Date)
  | dateTime (t : Calendar.DateTime)
  | list (items : List Value)
  | map (entries : List (String × Value))
  /-- Named values that belong together, such as the fields of a record. -/
  | aggregate (fields : List (String × Value))
  | template (handle : Handle)
  | object (o : HostObject)

structure HostObject where
  /-- Tells two objects of one content apart. -/
  identity : Nat
  typeName : String
  text : String
  property? : String → Option Value

end

/-- The types that a formatter can be registered for. -/
inductive ValueType where
  | bool | int | float | text | date | dateTime
  | object (typeName : String)
  deriving DecidableEq, Repr

namespace Value

instance : Inhabited Value := ⟨null⟩

def isNull : Value → Bool
  | null => true
  | _ => false

/-- The name of a value's kind in messages. -/
def kind : Value → String
  | null => "null"
  | bool _ => "bool"
  | int _ => "int"
  | float _ => "float"
  | text _ => "string"
  | date _ => "date"
  | dateTime _ => "datetime"
  | list _ => "list"
  | map _ => "map"
  | aggregate _ => "aggregate"
  | template _ => "template"
  | object o => o.typeName

def type? : Value → Option ValueType
  | bool _ => some .bool
  | int _ => some .int
  | float _ => some .float
  | text _ => some .text
  | date _ => some .date
  | dateTime _ => some .dateTime
  | object o => some (.object o.typeName)
  | _ => none

/-- Lists and maps are written element by element. -/
def isMultiValued : Value → Bool
  | list _ | map _ => true
  | _ => false

/-- The values that a list function or an application walks: the items of a list, the values of a
map in the order of its keys, nothing for null, and any other value by itself. -/
def elements : Value → List Value
  | null => []
  | list items => items
  | map entries => Table.values entries
  | v => [v]

/-- Whether a condition holds: not for null, false and what is empty. -/
def truthy : Value → Bool
  | null => false
  | bool b => b
  | list items => !items.isEmpty
  | map entries | aggregate entries => !entries.isEmpty
  | _ => true

def boolText (b : Bool) : String := if b then "true" else "false"

def intText (n : Int64) : String := toString n.toInt

mutual

/-- The text of a value outside every render. The elements of lists and maps follow each other
without a separator, and a template shows its handle. -/
def scalarText : Value → String
  | null => ""
  | bool b => boolText b
  | int n => intText n
  | float x => Decimal.floatText x
  | text s => s
  | date d => String.ofList d.isoText
  | dateTime t => String.ofList t.text
  | list items => joinedText items
  | map entries => joinedValuesText entries
  | aggregate fields => "\x7b" ++ ", ".intercalate (fieldTexts fields) ++ "\x7d"
  | template handle => handle.text
  | object o => o.text

def joinedText : List Value → String
  | [] => ""
  | v :: rest => scalarText v ++ joinedText rest

def joinedValuesText : List (String × Value) → String
  | [] => ""
  | (_, v) :: rest => scalarText v ++ joinedValuesText rest

def fieldTexts : List (String × Value) → List String
  | [] => []
  | (name, v) :: rest => (name ++ "=" ++ scalarText v) :: fieldTexts rest

end

mutual

/-- Equality of values: by content, for floats as numbers, for objects by identity. -/
def same : Value → Value → Bool
  | null, null => true
  | bool a, bool b => a == b
  | int a, int b => a == b
  | float a, float b => a == b
  | text a, text b => a == b
  | date a, date b => decide (a = b)
  | dateTime a, dateTime b => decide (a = b)
  | list a, list b => sameItems a b
  | map a, map b => sameEntries a b
  | aggregate a, aggregate b => sameEntries a b
  | template a, template b => decide (a = b)
  | object a, object b => a.identity == b.identity
  | _, _ => false

def sameItems : List Value → List Value → Bool
  | [], [] => true
  | a :: as, b :: bs => same a b && sameItems as bs
  | _, _ => false

def sameEntries : List (String × Value) → List (String × Value) → Bool
  | [], [] => true
  | (m, a) :: as, (n, b) :: bs => m == n && same a b && sameEntries as bs
  | _, _ => false

end

end Value
end Stencil
