import Stencil.Value.Accessors
import Stencil.Value.Conversion
/-!
# Points

A host type for trying out templates, with getters and predicates that shadow plain fields.
-/
namespace Stencil.Sample

structure Point where
  x : Int64
  y : Int64
  tags : List String
  deriving DecidableEq, Repr

namespace Point

def text (p : Point) : String := "(" ++ Value.intText p.x ++ ", " ++ Value.intText p.y ++ ")"

def accessors : Accessors Point :=
  ((((((((Accessors.empty
    |>.getter "sum" fun p => toValue (p.x + p.y))
    |>.getter "nothing" fun _ => .null)
    |>.predicate "zero" fun p => toValue (p.x == 0 && p.y == 0))
    |>.predicate "sum" fun _ => toValue false)
    |>.field "x" fun p => toValue p.x)
    |>.field "y" fun p => toValue p.y)
    |>.field "tags" fun p => toValue p.tags)
    |>.field "sum" fun p => toValue (p.x + p.y))
    |>.field "zero" fun p => toValue (p.x == 0 && p.y == 0)

def toObject (p : Point) (typeName : String) (identity : Nat) : HostObject :=
  ⟨identity, typeName, p.text, accessors.resolve? p⟩

end Point
end Stencil.Sample
