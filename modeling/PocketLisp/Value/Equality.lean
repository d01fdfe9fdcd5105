/-
PocketLisp/Value/Equality.lean

The two equalities of values.

`same` is identity, which for numbers means equal values.  `equal` compares
cells and texts by content; two cells that are one object are equal without a
look at their content.
-/
import PocketLisp.Value.Basic

namespace PocketLisp.Value

/-- Whether two values are one object. -/
def same : Value → Value → Bool
  | .nil, .nil | .t, .t => true
  | .number x, .number y => x == y
  | .text i _, .text j _ => i == j
  | .symbol s, .symbol r => s == r
  | .cons i _ _, .cons j _ _ => i == j
  | .function f, .function g => f == g
  | _, _ => false

/-- Whether two values have equal content. -/
def equal : Value → Value → Bool
  | .nil, .nil | .t, .t => true
  | .number x, .number y => x == y
  | .text _ x, .text _ y => x == y
  | .symbol s, .symbol r => s == r
  | .cons i a d, .cons j b e => i == j || (equal a b && equal d e)
  | .function f, .function g => f == g
  | _, _ => false

end PocketLisp.Value
