/-
PocketLisp/Number/Progression.lean

Arithmetic progressions: the values `start + i · step` before `stop`.  How
many there are is computed at once, by a division and a ceiling, so that the
count does not depend on how sums are rounded.

The rule is stated over any `Arithmetic`, of which floating-point numbers are
the one that programs use.
-/
import PocketLisp.Number.Exact

namespace PocketLisp.Number

/-- The operations that a progression is computed with. -/
structure Arithmetic (α : Type) where
  add : α → α → α
  sub : α → α → α
  mul : α → α → α
  div : α → α → α
  ofNat : Nat → α
  /-- the least integer that is not below a finite value; `none` for other values -/
  ceil? : α → Option Int
  /-- whether a value can be the distance of two neighbours -/
  isStep : α → Bool

/-- Floating-point arithmetic. -/
def floating : Arithmetic Float where
  add := (· + ·)
  sub := (· - ·)
  mul := (· * ·)
  div := (· / ·)
  ofNat := Float.ofNat
  ceil? := ceil?
  isStep := fun x => !(x == 0.0) && x.isFinite

/-- The longest progression that is built. -/
def maxProgression : Nat := Nat.pow 2 24

/-- The number of values from `start` on that come before `stop`; `none` if the step is no step
or the progression is too long. -/
def Arithmetic.count? {α : Type} (A : Arithmetic α) (start stop step : α) : Option Nat :=
  if !A.isStep step then none
  else match A.ceil? (A.div (A.sub stop start) step) with
    | none => none
    | some n => if (maxProgression : Int) < n then none else some n.toNat

/-- The values from `start` on that come before `stop`. -/
def Arithmetic.progression? {α : Type} (A : Arithmetic α) (start stop step : α) :
    Option (List α) :=
  (A.count? start stop step).map fun n =>
    (List.range n).map fun i => A.add start (A.mul (A.ofNat i) step)

end PocketLisp.Number
