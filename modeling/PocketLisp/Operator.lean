/-
PocketLisp/Operator.lean

The names of the binary operators.  What they compute is in
`PocketLisp.Value.Operation`.
-/

namespace PocketLisp

/-- The operators that calculate a new value. -/
inductive Calculation where
  | add | sub | mul | div | mod
  deriving DecidableEq, Repr

/-- The operators that compare. -/
inductive Comparison where
  | eq | lt | gt | le | ge
  deriving DecidableEq, Repr

/-- The binary operators. -/
inductive Operator where
  | calculate (op : Calculation)
  | compare (op : Comparison)
  deriving DecidableEq, Repr

/-- The name of an operator in programs and in faults. -/
def Calculation.name : Calculation → String
  | .add => "+"
  | .sub => "-"
  | .mul => "*"
  | .div => "/"
  | .mod => "mod"

/-- The name of an operator in programs and in faults. -/
def Comparison.name : Comparison → String
  | .eq => "="
  | .lt => "<"
  | .gt => ">"
  | .le => "<="
  | .ge => ">="

/-- Whether a comparison holds of two operands in this order. -/
def Comparison.holds : Comparison → Ordering → Bool
  | .eq, o => o == .eq
  | .lt, o => o == .lt
  | .gt, o => o == .gt
  | .le, o => o != .gt
  | .ge, o => o != .lt

namespace Operator

/-- All operators, calculations first. -/
def all : List Operator :=
  [.calculate .add, .calculate .sub, .calculate .mul, .calculate .div, .calculate .mod,
    .compare .eq, .compare .lt, .compare .gt, .compare .le, .compare .ge]

/-- The name of an operator in programs and in faults. -/
def name : Operator → String
  | .calculate op => op.name
  | .compare op => op.name

/-- Whether an operator compares its operands. -/
def isComparison : Operator → Bool
  | .calculate _ => false
  | .compare _ => true

theorem mem_all (op : Operator) : op ∈ all := by
  rcases op with op | op <;> cases op <;> decide

end Operator

end PocketLisp
