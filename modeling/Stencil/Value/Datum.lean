import Stencil.Error
import Stencil.Value.Conversion
/-!
# Data trees

The shape in which a host hands over data of its own types. Records become aggregates, maps become
maps and every kind of sequence a list.
-/
namespace Stencil

mutual

inductive Datum where
  | null
  | bool (b : Bool)
  /-- A whole number of at most 64 bits. -/
  | integer (n : Int)
  /-- A whole number of 128 bits. -/
  | wideInteger (n : Int)
  | float (x : Float)
  | text (s : String)
  | bytes (bs : List UInt8)
  /-- A value behind a wrapper that leaves no trace. -/
  | wrapped (inner : Datum)
  | sequence (items : List Datum)
  | map (steps : List MapStep)
  | record (fields : List (String × Datum))
  /-- Data that refuses to be read. -/
  | refused (reason : String)

/-- A map arrives as keys and values in turn. -/
inductive MapStep where
  | key (k : Datum)
  | value (v : Datum)

end

instance : Inhabited Datum := ⟨.null⟩

/-- A map on the way: what has arrived, and the key that waits for its value. -/
structure MapProgress where
  entries : Table Value
  pending : Option String

/-- The text of a key: texts and whole numbers can be keys. -/
def keyText : Value → Except SerialProblem String
  | .text s => .ok s
  | .int n => .ok (Value.intText n)
  | v => .error (.keyNotText v.kind)

namespace MapProgress

def start : MapProgress := ⟨.empty, none⟩

def withKey (p : MapProgress) (k : Value) : Except SerialProblem MapProgress :=
  (keyText k).map fun name => { p with pending := some name }

def withValue (p : MapProgress) (v : Value) : Except SerialProblem MapProgress :=
  match p.pending with
  | some name => .ok ⟨p.entries.insert name v, none⟩
  | none => .error .valueWithoutKey

end MapProgress

mutual

def Datum.value : Datum → Except SerialProblem Value
  | .null => .ok .null
  | .bool b => .ok (.bool b)
  | .integer n => .ok (.ofInt n)
  | .wideInteger _ => .error .wideInteger
  | .float x => .ok (.float x)
  | .text s => .ok (.text s)
  | .bytes bs => .ok (.list (bs.map toValue))
  | .wrapped inner => inner.value
  | .sequence items => (itemValues items).map .list
  | .map steps => (mapEntries .start steps).map .map
  | .record fields => (fieldValues .empty fields).map .aggregate
  | .refused reason => .error (.custom reason)

def itemValues : List Datum → Except SerialProblem (List Value)
  | [] => .ok []
  | item :: rest => do
    let v ← item.value
    return v :: (← itemValues rest)

def mapEntries (progress : MapProgress) : List MapStep → Except SerialProblem (Table Value)
  | [] => .ok progress.entries
  | .key k :: rest => do mapEntries (← progress.withKey (← k.value)) rest
  | .value v :: rest => do mapEntries (← progress.withValue (← v.value)) rest

def fieldValues (fields : Table Value) :
    List (String × Datum) → Except SerialProblem (Table Value)
  | [] => .ok fields
  | (name, d) :: rest => do fieldValues (fields.insert name (← d.value)) rest

end

/-- The value of a data tree. -/
def Value.ofDatum (d : Datum) : Except TemplateError Value :=
  match d.value with
  | .ok v => .ok v
  | .error problem => .error (.unserializable problem)

end Stencil
