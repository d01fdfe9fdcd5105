/-
PocketLisp/HostValue.lean

Values of the host, and their conversion to values of the language.
-/
import PocketLisp.Number.Exact
import PocketLisp.Number.Literal
import PocketLisp.Value.Fresh

namespace PocketLisp

/-- A value of the host that has a counterpart of its own. -/
inductive HostScalar where
  | value (v : Value)
  | unit
  | boolean (b : Bool)
  | integer (n : Int)
  | float (x : Float)
  | text (content : String)

/-- A value of the host. -/
inductive HostValue where
  | scalar (x : HostScalar)
  | sequence (items : List HostScalar)
  /-- a value of a type that has no counterpart -/
  | unsupported (type : String)

/-- The value of a host value; integers become the nearest numbers. -/
def HostScalar.convert : HostScalar → Fresh Value
  | .value v => return v
  | .unit => return .nil
  | .boolean b => return .ofBool b
  | .integer n => return .number (Float.ofInt n)
  | .float x => return .number x
  | .text content => Fresh.text content

/-- The value of a host value. -/
def HostValue.convert : HostValue → Fresh Value
  | .scalar x => x.convert
  | .sequence items => do Fresh.list (← items.mapM HostScalar.convert)
  | .unsupported type => throw (.notConvertible type)

/-! ### Numbers as hosts write them -/

/-- The number that a name without a sign stands for, in any letter case. -/
def namedNumber? (cs : List Char) : Option Float :=
  let name := cs.map Char.toLower
  if name = "inf".toList ∨ name = "infinity".toList then some (Number.infinity false)
  else if name = "nan".toList then some Number.nan
  else none

/-- A decimal literal, or the name of a number that no literal stands for; `value` rounds. -/
def hostNumber? (value : Number.Literal → Float) (cs : List Char) : Option Float :=
  match Number.Literal.of? cs with
  | some l => some (value l)
  | none =>
    let (negative, name) := Number.takeSign cs
    (namedNumber? name).map fun x => if negative then -x else x

end PocketLisp
