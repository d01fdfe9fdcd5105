/-
PocketLisp/Number/Written.lean

The written form of a number: the fewest digits that read back, laid out
without an exponent and without a point when the number is whole.
-/
import PocketLisp.Number.Exact
import PocketLisp.Number.Shortest

namespace PocketLisp.Number

/-- A decimal without the zeros at the end of its digits, at most `fuel` of them. -/
def Decimal.stripped (d : Decimal) : (fuel : Nat) → Decimal
  | 0 => d
  | fuel + 1 =>
    if d.digits % 10 = 0 ∧ d.digits ≠ 0 then
      Decimal.stripped ⟨d.digits / 10, d.exponent + 1⟩ fuel
    else d

/-- A decimal laid out with a point, or with zeros up to the place of the ones. -/
def Decimal.positional (d : Decimal) : List Char :=
  let digits := Nat.toDigits 10 d.digits
  if 0 ≤ d.exponent then digits ++ List.replicate d.exponent.toNat '0'
  else
    let places := (-d.exponent).toNat
    if digits.length ≤ places then
      '0' :: '.' :: List.replicate (places - digits.length) '0' ++ digits
    else digits.take (digits.length - places) ++ '.' :: digits.drop (digits.length - places)

/-- The mark in front of a negative number. -/
def signMark : Float.Model.UnpackedFloat.Sign → List Char
  | .negative => ['-']
  | .positive => []

/-- The written form of a number. -/
def written (x : Float) : List Char :=
  match exact x with
  | .notANumber => ['N', 'a', 'N']
  | .infinity s => signMark s ++ ['i', 'n', 'f']
  | .zero s => signMark s ++ ['0']
  | .finite s m e _ => signMark s ++ ((shortest m e).stripped 20).positional

end PocketLisp.Number
