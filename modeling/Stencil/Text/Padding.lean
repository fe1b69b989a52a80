/-!
# Numbers in columns

Whole numbers in a least width, filled with zeros behind the sign or with spaces before it.
-/
namespace Stencil.Text

/-- What fills a number up to its width. -/
inductive Fill where
  | none | zeros | spaces
  deriving DecidableEq, Repr

def decimalDigits (n : Nat) : List Char := Nat.toDigits 10 n

/-- The number in decimal; `signed` writes a plus sign before what is not negative. -/
def numberText (fill : Fill) (width : Nat) (signed : Bool) (n : Int) : List Char :=
  let sign := if n < 0 then ['-'] else if signed then ['+'] else []
  let digits := decimalDigits n.natAbs
  let missing := width - (sign.length + digits.length)
  match fill with
  | .none => sign ++ digits
  | .zeros => sign ++ List.replicate missing '0' ++ digits
  | .spaces => List.replicate missing ' ' ++ sign ++ digits

/-- At least `width` digits, filled with zeros. -/
def zeroPadded (width n : Nat) : List Char := numberText .zeros width false n

end Stencil.Text
