import Stencil.Template.Basic
import Stencil.Value.Basic
/-!
# List functions

The functions of the expression language on the elements of a value: a single value is like a list
of one, and null like an empty list.
-/
namespace Stencil

/-- An empty result is null. -/
def Value.listOrNull : List Value → Value
  | [] => .null
  | items => .list items

def Builtin.apply (f : Builtin) (v : Value) : Value :=
  let items := v.elements
  match f with
  | first => items.head?.getD .null
  | last => items.getLast?.getD .null
  | rest => .listOrNull items.tail
  | trunc => .listOrNull items.dropLast
  | length => .int (.ofNat items.length)
  | strip => .listOrNull (items.filter fun v => !v.isNull)

end Stencil
