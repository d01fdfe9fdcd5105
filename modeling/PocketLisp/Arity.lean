/-
PocketLisp/Arity.lean

The numbers of arguments that a primitive accepts.
-/
import PocketLisp.Fault

namespace PocketLisp

/-- Accepted numbers of arguments. -/
inductive Arity where
  | exactly (n : Nat)
  | atLeast (n : Nat)
  /-- both ends included -/
  | between (least most : Nat)
  deriving DecidableEq, Repr

/-- The bound that a number of arguments violates, if it violates one. -/
def Arity.fault? (a : Arity) (operator : String) (actual : Nat) : Option Fault :=
  match a with
  | .exactly n => if actual ≠ n then some (.arity operator n actual false) else none
  | .atLeast n => if actual < n then some (.arity operator n actual true) else none
  | .between least most =>
    if actual < least then some (.arity operator least actual true)
    else if most < actual then some (.arity operator most actual false)
    else none

/-- Accepts a number of arguments or names the bound that it violates. -/
def Arity.check (a : Arity) (operator : String) (actual : Nat) : Except Fault Unit :=
  match a.fault? operator actual with
  | some f => .error f
  | none => .ok ()

end PocketLisp
