/-
PocketLisp/Run/Expansion.lean

Expansion of macro calls.  An expander is a closure that is called with the
argument forms of a macro call as they stand; what it returns takes the place
of the call.

`wholly` expands a form from the outside inwards.  Quoted data is left alone,
as are the parameter list of a `lambda` and the name and the parameter list
of a `defun`.
-/
import PocketLisp.Run.Scope

namespace PocketLisp

namespace Value

/-- The first components of the cells of a list. -/
def cars : Value → List Value
  | .cons _ a d => a :: d.cars
  | _ => []

end Value

/-- How many elements at the front of a list with a head are left alone by expansion; `none` for
all. -/
def keptBehind (head : Option Symbol) : Option Nat :=
  match head.bind Symbol.keyword with
  | some (.form .quote) => none
  | some (.form .lambda) => some 2
  | some (.form .defun) => some 3
  | _ => some 0

namespace Run.Expansion

/-- Expands a form once, if it is a macro call. -/
def once? (self : Recur) (form : Value) (env : FrameId) : Run (Option Value) :=
  match form with
  | .cons _ (.symbol head) tail => do
    match ← read fun s => s.expander? env head with
    | none => return none
    | some expander => return some (← callClosure self expander (← tail.listItems))
  | _ => return none

/-- Expands a form until it is no macro call, `rounds` times at most. -/
def head (self : Recur) (env : FrameId) : (rounds : Nat) → Value → Run Value
  | 0, _ => unfinished
  | rounds + 1, form => do
    match ← once? self form env with
    | none => return form
    | some next => head self env rounds next

/-- Expands the elements of a list that is no macro call itself. -/
def elements (self : Recur) (env : FrameId) (form first : Value) : Run Value :=
  match keptBehind first.symbol? with
  | none => return form
  | some kept => do
    let items := form.cars
    let expanded ← (items.drop kept).mapM fun item => self (.expand item env)
    Fresh.listOnto (items.take kept ++ expanded) form.finalTail

/-- Expands all macro calls in a form. -/
def wholly (self : Recur) (rounds : Nat) (form : Value) (env : FrameId) : Run Value :=
  if form.isCons then do
    let form ← head self env rounds form
    match form with
    | .cons _ first _ => elements self env form first
    | _ => return form
  else return form

end Run.Expansion

end PocketLisp
