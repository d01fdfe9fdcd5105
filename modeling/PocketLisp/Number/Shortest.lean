/-
PocketLisp/Number/Shortest.lean

The fewest decimal digits that read back to a number.

A positive number `m · 2 ^ q` is read from every decimal in an interval around
it: the decimals closer to it than to its neighbours, the ends of the interval
included when `m` is even.  For one digit, two digits and so on the two points
of the decimal grid next to the number are tried; the first grid with a point
in the interval is taken, of two such points the closer one, and the larger
one when both are equally close.
-/

namespace PocketLisp.Number

/-- The decimal `digits · 10 ^ exponent`. -/
structure Decimal where
  digits : Nat
  exponent : Int
  deriving DecidableEq, Repr

/-! ### The interval of decimals that read back -/

/-- A fraction and the interval around it, over one denominator. -/
structure Interval where
  low : Nat
  value : Nat
  high : Nat
  denominator : Nat
  /-- whether the ends belong to the interval -/
  closed : Bool
  deriving DecidableEq, Repr

/-- The interval around `m · 2 ^ q`.  Below a power of two the neighbour is half as far away,
except at the least exponent. -/
def Interval.around (m : Nat) (q : Int) : Interval :=
  let down := if m = Nat.pow 2 52 ∧ -1074 < q then 1 else 2
  let scale := Nat.pow 2 (q - 2).toNat
  ⟨(4 * m - down) * scale, 4 * m * scale, (4 * m + 2) * scale, Nat.pow 2 (2 - q).toNat,
    m % 2 = 0⟩

/-- The value `digits · 10 ^ exponent` as a fraction. -/
def Decimal.fraction (d : Decimal) : Nat × Nat :=
  (d.digits * Nat.pow 10 d.exponent.toNat, Nat.pow 10 (-d.exponent).toNat)

/-- Whether a decimal lies in the interval. -/
def Interval.contains (i : Interval) (d : Decimal) : Bool :=
  let (n, k) := d.fraction
  let x := n * i.denominator
  if i.closed then i.low * k ≤ x && x ≤ i.high * k else i.low * k < x && x < i.high * k

/-! ### The search -/

/-- The number of decimal digits of a natural number, zero having none. -/
def digitCount (n : Nat) : Nat :=
  if n = 0 then 0 else (Nat.toDigits 10 n).length

/-- How many of the first `k` powers `10 ^ 1, … , 10 ^ k` leave `n / d` below one. -/
def leadingZeros (n d : Nat) : Nat → Nat
  | 0 => 0
  | k + 1 => if n * 10 < d then leadingZeros (n * 10) d k + 1 else 0

/-- The exponent `p` of the power of ten that follows the leading digit:
`10 ^ (p - 1) ≤ n / d < 10 ^ p`. -/
def magnitude (n d : Nat) : Int :=
  if d ≤ n then digitCount (n / d) else -(leadingZeros n d 330 : Nat)

/-- The points of the grid of spacing `10 ^ k` next to `n / d`: the one not above, the one above. -/
def gridNeighbours (n d : Nat) (k : Int) : Decimal × Decimal :=
  let below := n * Nat.pow 10 (-k).toNat / (d * Nat.pow 10 k.toNat)
  (⟨below, k⟩, ⟨below + 1, k⟩)

/-- Whether `n / d` is closer to the first decimal than to the second, which is the next one
on the grid. -/
def closerBelow (n d : Nat) (a b : Decimal) : Bool :=
  let (x, k) := a.fraction
  let (y, _) := b.fraction
  2 * n * k < (x + y) * d

/-- The point of a grid that is taken, if one lies in the interval. -/
def gridPoint? (i : Interval) (k : Int) : Option Decimal :=
  let (a, b) := gridNeighbours i.value i.denominator k
  match i.contains a, i.contains b with
  | true, true => some (if closerBelow i.value i.denominator a b then a else b)
  | true, false => some a
  | false, true => some b
  | false, false => none

/-- The decimal with the fewest digits that reads back to `m · 2 ^ q`. -/
def shortest (m : Nat) (q : Int) : Decimal :=
  let i := Interval.around m q
  let p := magnitude i.value i.denominator
  match (List.range' 1 17).findSome? fun (digits : Nat) => gridPoint? i (p - digits) with
  | some d => d
  | none => (gridNeighbours i.value i.denominator (p - 17)).2

end PocketLisp.Number
