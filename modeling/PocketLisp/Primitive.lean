/-
PocketLisp/Primitive.lean

What a function that is not written in the language itself can do.  The
standard primitives are listed one by one; functions of the host are told
apart by a number.
-/
import PocketLisp.Operator
import PocketLisp.Symbol.Table

namespace PocketLisp

/-- The body of a native function. -/
inductive Primitive where
  | list | cons | car | cdr
  | isNil | isCons | isSymbol | isNumber | isText | isFunction
  /-- an operator folded over its arguments -/
  | fold (op : Operator)
  | length | reverse | map | filter | reduce | range | substring
  | eq | equal | gensym
  /-- printing on a channel -/
  | print (channel : Nat)
  | apply | eval | expandOnce | expandHead
  /-- opening, reading and closing ports of a table; reading an exhausted port gives the marker -/
  | openPort (ports : Nat)
  | readPort (ports : Nat) (marker : Symbol)
  | isMarker (marker : Symbol)
  | closePort (ports : Nat)
  /-- a function of the host -/
  | host (index : Nat)
  deriving DecidableEq, Repr

end PocketLisp
