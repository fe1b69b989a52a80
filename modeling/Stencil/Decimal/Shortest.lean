/-!
# Shortest decimals of binary fractions

A binary fraction `m · 2 ^ q` of a fixed precision stands for every real number that rounds to it.
`shortest` names the decimal with the fewest digits among those numbers, the nearest to the
fraction when there are several: the coarsest grid of multiples of a power of ten that meets the
interval is searched from above, and on that grid only the two neighbours of the fraction count.
-/
namespace Stencil.Decimal

/-- The numbers that round to a fraction, in units of `2 ^ exponent`. -/
structure Interval where
  lower : Nat
  value : Nat
  upper : Nat
  exponent : Int
  /-- Whether the two ends belong to the interval. -/
  closed : Bool
  deriving DecidableEq, Repr

/-- The numbers nearer to `m · 2 ^ q` than to its neighbours. Below `narrow` the neighbours lie at
half the distance; an even significand also takes the two midpoints. -/
def Interval.around (m : Nat) (q : Int) (narrow : Bool) : Interval where
  lower := 4 * m - (if narrow then 1 else 2)
  value := 4 * m
  upper := 4 * m + 2
  exponent := q - 2
  closed := m % 2 = 0

/-- A decimal `digits · 10 ^ exponent`. -/
structure Digits where
  digits : Nat
  exponent : Int
  deriving DecidableEq, Repr

/-- The factors that bring `2 ^ exponent` and `10 ^ e` to a common measure. -/
def Interval.scale (i : Interval) (e : Int) : Nat × Nat :=
  (Nat.pow 2 i.exponent.toNat * Nat.pow 10 (-e).toNat,
    Nat.pow 2 (-i.exponent).toNat * Nat.pow 10 e.toNat)

/-- `n · 10 ^ e` lies in the interval and is not zero. -/
def Interval.holds (i : Interval) (e : Int) (n : Nat) : Bool :=
  let (units, tens) := i.scale e
  let x := n * tens
  n != 0 &&
    if i.closed then i.lower * units ≤ x && x ≤ i.upper * units
    else i.lower * units < x && x < i.upper * units

/-- The multiple of `10 ^ e` in the interval that is nearest to the value, a tie going up. -/
def Interval.nearest? (i : Interval) (e : Int) : Option Nat :=
  let (units, tens) := i.scale e
  let below := i.value * units / tens
  match i.holds e below, i.holds e (below + 1) with
  | true, true =>
    if (2 * below + 1) * tens ≤ 2 * i.value * units then some (below + 1) else some below
  | true, false => some below
  | false, true => some (below + 1)
  | false, false => none

/-- Looks at the grids of `10 ^ e`, `10 ^ (e - 1)`, … in turn, `steps` of them at most. -/
def Interval.coarsest (i : Interval) : Nat → Int → Digits
  | 0, e => ⟨(i.nearest? e).getD 0, e⟩
  | steps + 1, e =>
    match i.nearest? e with
    | some n => ⟨n, e⟩
    | none => i.coarsest steps (e - 1)

/-- The fewest digits that read back as the fraction of the interval: no multiple of a power of ten
above the integer part of the upper end lies in it, and the fraction itself lies on the grid of
its own exponent. -/
def Interval.shortest (i : Interval) : Digits :=
  let integerPart := i.upper * Nat.pow 2 i.exponent.toNat / Nat.pow 2 (-i.exponent).toNat
  let top := (Nat.toDigits 10 integerPart).length
  i.coarsest (top + (-i.exponent).toNat) top

end Stencil.Decimal
