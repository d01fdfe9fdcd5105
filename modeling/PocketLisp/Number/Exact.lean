/-
PocketLisp/Number/Exact.lean

The exact value of a number.  Numbers are binary floating-point numbers of 64
bits; apart from the infinities and NaN each stands for `± m · 2 ^ e`, and
what is asked here of such a value is computed on `m` and `e`: whether it is
whole, its ceiling, its use as an index, and the remainder of two of them.
-/

namespace PocketLisp.Number

open Float.Model (UnpackedFloat)
open Float.Model.UnpackedFloat (Sign)

/-- The exact value of a number. -/
def exact (x : Float) : UnpackedFloat := x.toModel.unpack

/-- The number nearest to `± m · 2 ^ e`. -/
def ofExact (s : Sign) (m : Nat) (e : Int) : Float :=
  .ofModel (.pack (if m = 0 then .zero s else .round .binary64 s m e))

/-- Not a number. -/
def nan : Float := 0.0 / 0.0

/-- The infinity of either sign. -/
def infinity (negative : Bool) : Float :=
  if negative then -1.0 / 0.0 else 1.0 / 0.0

/-! ### Whole numbers -/

/-- Whether a number is finite and has no fractional part. -/
def isWhole (x : Float) : Bool :=
  match exact x with
  | .zero _ => true
  | .finite _ m e _ => 0 ≤ e || m % Nat.pow 2 (-e).toNat == 0
  | _ => false

/-- The largest index; larger numbers count as this one. -/
def maxIndex : Nat := Nat.pow 2 64 - 1

/-- A number as an index: it has to be whole and not negative. -/
def index? (x : Float) : Option Nat :=
  if !isWhole x then none
  else match exact x with
    | .finite .positive m e _ =>
      some (min maxIndex (if 0 ≤ e then m * Nat.pow 2 e.toNat else m / Nat.pow 2 (-e).toNat))
    | .zero _ => some 0
    | _ => none

/-- The least integer that is not below a finite number. -/
def ceil? (x : Float) : Option Int :=
  match exact x with
  | .zero _ => some 0
  | .finite s m e _ =>
    let unit := Nat.pow 2 (-e).toNat
    let whole := m * Nat.pow 2 e.toNat
    match s with
    | .positive => some ((whole + (unit - 1)) / unit : Nat)
    | .negative => some (-(whole / unit : Nat))
  | _ => none

/-! ### Order and remainder -/

/-- The order of two numbers; NaN has none with any number, and the two zeros are equal. -/
def compare? (a b : Float) : Option Ordering :=
  if a < b then some .lt
  else if a == b then some .eq
  else if b < a then some .gt
  else none

/-- The remainder of a division that truncates: exact, with the sign of the dividend. -/
def remainder (a b : Float) : Float :=
  match exact a, exact b with
  | .notANumber, _ | _, .notANumber | .infinity _, _ | _, .zero _ => nan
  | .zero _, _ | _, .infinity _ => a
  | .finite s m e _, .finite _ m' e' _ =>
    let unit := min e e'
    ofExact s ((m * Nat.pow 2 (e - unit).toNat) % (m' * Nat.pow 2 (e' - unit).toNat)) unit

end PocketLisp.Number
