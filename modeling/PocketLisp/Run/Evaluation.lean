/-
PocketLisp/Run/Evaluation.lean

Evaluation of forms.  A symbol stands for what it is bound to; a list is a
special form or a call; every other value stands for itself.
-/
import PocketLisp.Run.Scope

namespace PocketLisp.Run

/-! ### Special forms -/

/-- Evaluates forms as long as a condition holds, `rounds` times at most. -/
def whileTrue (self : Recur) (condition : Value) (forms : List Value) (env : FrameId) :
    (rounds : Nat) → Run Value
  | 0 => unfinished
  | rounds + 1 => do
    let v ← self (.eval condition env)
    if v.isTrue then
      let _ ← body self forms env
      whileTrue self condition forms env rounds
    else return .nil

/-- Evaluates a special form. -/
def specialForm (self : Recur) (rounds : Nat) (form : SpecialForm) (head : String)
    (args : List Value) (env : FrameId) : Run Value :=
  let exactly (n : Nat) : Run Value := fault (.arity head n args.length false)
  let atLeast (n : Nat) : Run Value := fault (.arity head n args.length true)
  match form with
  | .quote =>
    match args with
    | [v] => return v
    | _ => exactly 1
  | .ifThenElse =>
    match args with
    | [condition, yes, no] => do
      let v ← self (.eval condition env)
      if v.isTrue then self (.eval yes env) else self (.eval no env)
    | _ => exactly 3
  | .progn => body self args env
  | .define =>
    match args with
    | [target, form] => do
      let symbol ← target.expectSymbol
      let v ← self (.eval form env)
      define env symbol v
      return v
    | _ => exactly 2
  | .setq =>
    match args with
    | [target, form] => do
      let symbol ← target.expectSymbol
      let v ← self (.eval form env)
      assign env symbol v
      return v
    | _ => exactly 2
  | .lambda =>
    match args with
    | params :: forms => do
      return .function (.closure (← makeClosure none params forms env))
    | _ => atLeast 1
  | .defun =>
    match args with
    | target :: params :: form :: forms => do
      let symbol ← target.expectSymbol
      let c ← makeClosure (some symbol) params (form :: forms) env
      define env symbol (.function (.closure c))
      return .function (.closure c)
    | _ => atLeast 3
  | .whileLoop =>
    match args with
    | condition :: form :: forms => whileTrue self condition (form :: forms) env rounds
    | _ => atLeast 2

/-! ### Forms -/

/-- Calls the value of the first element of a list with the values of the others. -/
def call (self : Recur) (head tail : Value) (env : FrameId) : Run Value := do
  match ← self (.eval head env) with
  | .function f =>
    let args ← tail.items.mapM fun form => self (.eval form env)
    self (.apply f args env)
  | _ => fault (.undefinedFunction head.print)

/-- The special form that a list with this head is, and the name of the head. -/
def specialHead? : Value → Option (SpecialForm × String)
  | .symbol s => s.specialForm?.map fun f => (f, s.name)
  | _ => none

/-- Evaluates a form. -/
def form (self : Recur) (rounds : Nat) (form : Value) (env : FrameId) : Run Value :=
  match form with
  | .symbol s => get env s
  | .cons _ head tail => do
    match specialHead? head with
    | some (f, name) => specialForm self rounds f name (← tail.listItems) env
    | none => call self head tail env
  | v => return v

end PocketLisp.Run
