/-
PocketLisp/Value/Access.lean

Taking values apart where one of a certain kind is expected.  A value of
another kind is a fault that shows the value.
-/
import PocketLisp.Number.Exact
import PocketLisp.Value.Written

namespace PocketLisp

/-- The fault of an operation on values that it does not take. -/
def Fault.refused (operator : String) (operands : List Value) : Fault :=
  .invalidOperation operator (operands.map Value.print)

namespace Value

/-! ### Lists and symbols -/

/-- The first component of a cell; the empty list is its own. -/
def car : Value → Except Fault Value
  | .cons _ a _ => .ok a
  | .nil => .ok .nil
  | v => .error (.listExpected v.print)

/-- The second component of a cell; the empty list is its own. -/
def cdr : Value → Except Fault Value
  | .cons _ _ d => .ok d
  | .nil => .ok .nil
  | v => .error (.listExpected v.print)

/-- The items of what has to be a list. -/
def listItems (v : Value) : Except Fault (List Value) :=
  if v.isList then .ok v.items else .error (.listExpected v.print)

/-- What has to be a symbol. -/
def expectSymbol : Value → Except Fault Symbol
  | .symbol s => .ok s
  | v => .error (.symbolExpected v.print)

/-! ### Operands -/

/-- An operand that has to be a number. -/
def expectNumber (operator : String) : Value → Except Fault Float
  | .number x => .ok x
  | v => .error (.refused operator [v])

/-- An operand that has to be a text. -/
def expectText (operator : String) : Value → Except Fault String
  | .text _ content => .ok content
  | v => .error (.refused operator [v])

/-- An operand that has to be a whole number from zero on. -/
def expectIndex (operator : String) (v : Value) : Except Fault Nat :=
  match v with
  | .number x =>
    match Number.index? x with
    | some n => .ok n
    | none => .error (.refused operator [v])
  | _ => .error (.refused operator [v])

/-- An operand that has to be a function. -/
def expectFunction (operator : String) : Value → Except Fault Function
  | .function f => .ok f
  | v => .error (.refused operator [v])

end Value

end PocketLisp
