import Stencil.Value.Basic
/-!
# Conversion to values

How values of other types become attribute values. A whole number outside 64 bits keeps its digits
as a text.
-/
namespace Stencil

class ToValue (α : Type) where
  toValue : α → Value

export ToValue (toValue)

namespace Value

def ofInt (n : Int) : Value :=
  if Int64.minValue.toInt ≤ n ∧ n ≤ Int64.maxValue.toInt then int (Int64.ofInt n)
  else text (toString n)

theorem ofInt_toInt (n : Int64) : ofInt n.toInt = int n := by
  have low : Int64.minValue.toInt ≤ n.toInt := by
    simpa using Int64.le_toInt n
  simp only [ofInt, low, true_and]
  simp [Int64.toInt_le n]

end Value

instance : ToValue Value := ⟨id⟩
instance : ToValue Unit := ⟨fun _ => .null⟩
instance : ToValue Bool := ⟨.bool⟩
instance : ToValue Int8 := ⟨fun n => .int n.toInt64⟩
instance : ToValue Int16 := ⟨fun n => .int n.toInt64⟩
instance : ToValue Int32 := ⟨fun n => .int n.toInt64⟩
instance : ToValue Int64 := ⟨.int⟩
instance : ToValue UInt8 := ⟨fun n => .int (Int64.ofNat n.toNat)⟩
instance : ToValue UInt16 := ⟨fun n => .int (Int64.ofNat n.toNat)⟩
instance : ToValue UInt32 := ⟨fun n => .int (Int64.ofNat n.toNat)⟩
instance : ToValue UInt64 := ⟨fun n => .ofInt n.toNat⟩
instance : ToValue Int := ⟨.ofInt⟩
instance : ToValue Nat := ⟨fun n => .ofInt n⟩
instance : ToValue Float := ⟨.float⟩
instance : ToValue Float32 := ⟨fun x => .float x.toFloat⟩
instance : ToValue Char := ⟨fun c => .text c.toString⟩
instance : ToValue String := ⟨.text⟩
instance : ToValue Calendar.Date := ⟨.date⟩
instance : ToValue Calendar.DateTime := ⟨.dateTime⟩
instance : ToValue Handle := ⟨.template⟩

instance {α : Type} [ToValue α] : ToValue (Option α) :=
  ⟨fun a? => match a? with
    | some a => toValue a
    | none => .null⟩

instance {α : Type} [ToValue α] : ToValue (List α) := ⟨fun as => .list (as.map toValue)⟩

instance {α : Type} [ToValue α] : ToValue (Array α) := ⟨fun as => toValue as.toList⟩

/-- Entries under names, in whatever order they come. -/
structure Named (α : Type) where
  entries : List (String × α)

instance {α : Type} [ToValue α] : ToValue (Named α) :=
  ⟨fun named => .map (Table.ofList (named.entries.map fun (name, a) => (name, toValue a)))⟩

end Stencil
