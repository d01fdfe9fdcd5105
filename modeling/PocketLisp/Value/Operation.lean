/-
PocketLisp/Value/Operation.lean

The binary operators on values, and their fold over a list of arguments.

`+` adds numbers, joins texts and appends lists; the other calculations take
numbers.  A comparison takes two numbers or two texts; a comparison of several
arguments is that of every two neighbours, and it stops at the first that
fails.
-/
import PocketLisp.Value.Access
import PocketLisp.Value.Fresh

namespace PocketLisp

/-! ### Two operands -/

/-- The order of two texts, by code points. -/
def compareTexts (a b : String) : Ordering :=
  if a < b then .lt else if a == b then .eq else .gt

/-- A comparison of two values. -/
def Comparison.apply (op : Comparison) (lhs rhs : Value) : Except Fault Value :=
  match lhs, rhs with
  | .number a, .number b =>
    match Number.compare? a b with
    | some o => .ok (.ofBool (op.holds o))
    | none => .ok .nil
  | .text _ a, .text _ b => .ok (.ofBool (op.holds (compareTexts a b)))
  | _, _ => .error (.refused op.name [lhs, rhs])

/-- A calculation on two numbers. -/
def Calculation.onNumbers (op : Calculation) (a b : Float) : Except Fault Float :=
  match op with
  | .add => .ok (a + b)
  | .sub => .ok (a - b)
  | .mul => .ok (a * b)
  | .div => if b == 0.0 then .error .divisionByZero else .ok (a / b)
  | .mod => if b == 0.0 then .error .divisionByZero else .ok (Number.remainder a b)

/-- A calculation on two values. -/
def Calculation.apply (op : Calculation) (lhs rhs : Value) : Fresh Value :=
  match op, lhs, rhs with
  | _, .number a, .number b => return .number (← op.onNumbers a b)
  | .add, .text _ a, .text _ b => Fresh.text (a ++ b)
  | .add, _, _ =>
    if lhs.isList && rhs.isList then Fresh.listOnto lhs.items rhs
    else throw (.refused op.name [lhs, rhs])
  | _, _, _ => throw (.refused op.name [lhs, rhs])

namespace Operator

/-- An operator on two values. -/
def apply (op : Operator) (lhs rhs : Value) : Fresh Value :=
  match op with
  | .calculate c => c.apply lhs rhs
  | .compare c => c.apply lhs rhs

/-! ### Any number of operands -/

/-- A comparison of every two neighbours. -/
def compareChain (op : Comparison) : List Value → Except Fault Value
  | a :: b :: rest => do
    let v ← op.apply a b
    if v.isTrue then compareChain op (b :: rest) else return .nil
  | _ => return .t

/-- An operator over a list of arguments, from the left.  A single number is negated by `-`. -/
def fold (op : Operator) (args : List Value) : Fresh Value :=
  match op, args with
  | .compare c, _ => compareChain c args
  | .calculate .sub, [.number x] => return .number (-x)
  | .calculate c, first :: rest => rest.foldlM c.apply first
  | .calculate c, [] => throw (.arity c.name 1 0 true)

/-- The numbers of arguments with which programs may call an operator. -/
def arity : Operator → Arity
  | .calculate .add | .calculate .sub | .calculate .mul => .atLeast 1
  | .calculate .mod => .exactly 2
  | _ => .atLeast 2

end Operator

end PocketLisp
