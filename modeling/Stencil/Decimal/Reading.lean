import Stencil.Text.Search
/-!
# Reading decimals

A decimal numeral, with or without a point and an exponent, names the nearest binary fraction of
either precision; the words for infinity and not-a-number are read without regard to case.
-/
namespace Stencil.Decimal

/-- A numeral: a significand, the number of its digits behind the point, and a power of ten. -/
structure Numeral where
  significand : Nat
  digits : Nat
  exponent : Int
  deriving DecidableEq, Repr

def digitsValue (s : List Char) : Nat :=
  s.foldl (fun n c => 10 * n + (c.toNat - '0'.toNat)) 0

/-- A whole number in decimal digits with an optional sign. -/
def integer? (s : List Char) : Option Int :=
  let (negative, digits) :=
    match s with
    | '-' :: rest => (true, rest)
    | '+' :: rest => (false, rest)
    | _ => (false, s)
  if digits.isEmpty || !digits.all Char.isDigit then none
  else some (if negative then -(digitsValue digits : Int) else digitsValue digits)

/-- The numeral `s`, a sign apart: digits, perhaps a point and digits, perhaps an exponent. -/
def numeral? (s : List Char) : Option Numeral :=
  let whole := s.takeWhile Char.isDigit
  let rest := s.dropWhile Char.isDigit
  let (fraction, rest) :=
    match rest with
    | '.' :: more => (more.takeWhile Char.isDigit, more.dropWhile Char.isDigit)
    | _ => ([], rest)
  let exponent? : Option Int :=
    match rest with
    | [] => some 0
    | c :: more => if c = 'e' ∨ c = 'E' then integer? more else none
  if whole.isEmpty && fraction.isEmpty then none
  else exponent?.map fun exponent =>
    { significand := digitsValue (whole ++ fraction)
      digits := whole.length + fraction.length
      exponent := exponent - fraction.length }

/-- What a decimal text names. -/
inductive Reading where
  | finite (numeral : Numeral)
  | infinite
  | notANumber
  deriving DecidableEq, Repr

def reading? (s : List Char) : Option (Bool × Reading) :=
  let (negative, body) :=
    match s with
    | '-' :: rest => (true, rest)
    | '+' :: rest => (false, rest)
    | _ => (false, s)
  let word := String.ofList (body.map Char.toLower)
  if word = "inf" ∨ word = "infinity" then some (negative, .infinite)
  else if word = "nan" then some (negative, .notANumber)
  else (numeral? body).map fun n => (negative, .finite n)

/-- The power of ten below every numeral that both precisions take for zero, and above which every
numeral is infinite. -/
def farExponent : Int := 400

/-- The double nearest to a numeral. -/
def Numeral.toFloat (n : Numeral) : Float :=
  let magnitude := n.digits + n.exponent
  if n.significand = 0 ∨ magnitude < -farExponent then 0
  else if farExponent < (Nat.toDigits 10 n.significand).length + n.exponent then 1 / 0
  else Float.ofScientific n.significand (n.exponent < 0) n.exponent.natAbs

/-- The single-precision number nearest to a numeral. -/
def Numeral.toFloat32 (n : Numeral) : Float32 :=
  let magnitude := n.digits + n.exponent
  if n.significand = 0 ∨ magnitude < -farExponent then 0
  else if farExponent < (Nat.toDigits 10 n.significand).length + n.exponent then 1 / 0
  else Float32.ofScientific n.significand (n.exponent < 0) n.exponent.natAbs

def float? (s : List Char) : Option Float :=
  (reading? s).map fun (negative, r) =>
    let magnitude : Float :=
      match r with
      | .finite n => n.toFloat
      | .infinite => 1 / 0
      | .notANumber => 0 / 0
    if negative then -magnitude else magnitude

/-- Reads a single-precision number, widened to a double. -/
def float32? (s : List Char) : Option Float :=
  (reading? s).map fun (negative, r) =>
    let magnitude : Float32 :=
      match r with
      | .finite n => n.toFloat32
      | .infinite => 1 / 0
      | .notANumber => 0 / 0
    (if negative then -magnitude else magnitude).toFloat

end Stencil.Decimal
