import Stencil.Decimal.Shortest
/-!
# The text of a double

A double is written with the fewest digits that read back as it, always in positions and never with
an exponent: whole numbers without a point, fractions below one with a zero before it.
-/
namespace Stencil.Decimal

/-- The digits with a point after the first `point` of them, filled up with zeros. -/
def positional (digits : List Char) (point : Int) : List Char :=
  if point ≤ 0 then ['0', '.'] ++ List.replicate (-point).toNat '0' ++ digits
  else if digits.length ≤ point.toNat then
    digits ++ List.replicate (point.toNat - digits.length) '0'
  else digits.take point.toNat ++ ['.'] ++ digits.drop point.toNat

def Digits.text (d : Digits) : List Char :=
  let digits := Nat.toDigits 10 d.digits
  positional digits (digits.length + d.exponent)

/-- The parts of a double's encoding. -/
structure Double where
  negative : Bool
  exponent : Nat
  fraction : Nat
  deriving DecidableEq, Repr

def Double.ofFloat (x : Float) : Double :=
  let bits := x.toBits.toNat
  { negative := bits / Nat.pow 2 63 = 1
    exponent := bits / Nat.pow 2 52 % Nat.pow 2 11
    fraction := bits % Nat.pow 2 52 }

/-- The interval of a finite double that is not zero. -/
def Double.interval (d : Double) : Interval :=
  if d.exponent = 0 then .around d.fraction (-1074) false
  else .around (Nat.pow 2 52 + d.fraction) (d.exponent - 1075) (d.fraction = 0)

def Double.text (d : Double) : List Char :=
  let sign := if d.negative then ['-'] else []
  if d.exponent = Nat.pow 2 11 - 1 then
    if d.fraction = 0 then sign ++ ['i', 'n', 'f'] else ['N', 'a', 'N']
  else if d.exponent = 0 ∧ d.fraction = 0 then sign ++ ['0']
  else sign ++ d.interval.shortest.text

def floatText (x : Float) : String := String.ofList (Double.ofFloat x).text

end Stencil.Decimal
