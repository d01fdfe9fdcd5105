/-
PocketLisp/Parameters.lean

Parameter lists: a proper list of symbols, in which `&rest` may stand in front
of the last one.
-/
import PocketLisp.Value.Access

namespace PocketLisp

/-- The parameters of a closure: one for each of the first arguments, and perhaps one for the
list of all further arguments. -/
structure Parameters where
  positional : List Symbol
  rest : Option Symbol
  deriving DecidableEq, Repr, Inhabited

namespace Parameters

/-- The symbols of a list up to its final tail, and that tail. -/
def symbols : Value → Except Fault (List Symbol × Value)
  | .cons _ a d => do
    let s ← a.expectSymbol
    let (ss, tail) ← symbols d
    return (s :: ss, tail)
  | tail => return ([], tail)

/-- The parameters that a value lists. -/
def ofValue (list : Value) : Except Fault Parameters := do
  if !list.isList then throw (.listExpected list.print)
  let (names, tail) ← symbols list
  if !tail.isNil then throw (.invalidParameters ("dotted parameter list " ++ list.print))
  match names.span fun s => !s.is .rest with
  | (positional, []) => return ⟨positional, none⟩
  | (positional, [_, name]) => return ⟨positional, some name⟩
  | _ => throw (.invalidParameters
      ("&rest must be followed by exactly one name in " ++ list.print))

/-- The fault of a number of arguments that does not fit. -/
def fault? (p : Parameters) (name : String) (actual : Nat) : Option Fault :=
  let required := p.positional.length
  match p.rest with
  | some _ => if actual < required then some (.arity name required actual true) else none
  | none => if actual ≠ required then some (.arity name required actual false) else none

end Parameters

end PocketLisp
