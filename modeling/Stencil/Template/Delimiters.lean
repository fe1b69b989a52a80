import Stencil.Text.Blank
/-!
# Delimiters

The two characters that open and close an expression chunk.
-/
namespace Stencil

structure Delimiters where
  start : Char
  stop : Char
  deriving DecidableEq, Repr

namespace Delimiters

/-- `$name$` -/
def dollar : Delimiters := ⟨'$', '$'⟩

/-- `<name>` -/
def angle : Delimiters := ⟨'<', '>'⟩

instance : Inhabited Delimiters := ⟨dollar⟩

/-- The pair of a name, the blanks around it apart. -/
def ofName? (name : String) : Option Delimiters :=
  let word := String.ofList (Text.trim name.toList)
  if word = "$" ∨ word = "dollar" then some dollar
  else if word = "<" ∨ word = "<>" ∨ word = "angle" then some angle
  else none

end Delimiters
end Stencil
