/-
PocketLisp/Number/Literal.lean

Decimal literals: a sign or none, digits with a point among or around them,
and an exponent or none.  Only the ten ASCII digits count.  The value is the
floating-point number nearest to the literal; what is too large is infinite,
and a zero keeps its sign.
-/

namespace PocketLisp.Number

/-- A decimal literal: sign, mantissa and the power of ten that multiplies it. -/
structure Literal where
  negative : Bool
  mantissa : Nat
  exponent : Int
  deriving DecidableEq, Repr

/-! ### Reading the parts -/

/-- Whether a character is one of the ten ASCII digits. -/
def isDigit (c : Char) : Bool := '0' ≤ c && c ≤ '9'

/-- The natural number that a run of digits names. -/
def ofDigits (cs : List Char) : Nat :=
  cs.foldl (fun n c => 10 * n + (c.toNat - '0'.toNat)) 0

/-- A sign in front of a text, and the text behind it. -/
def takeSign : List Char → Bool × List Char
  | '-' :: cs => (true, cs)
  | '+' :: cs => (false, cs)
  | cs => (false, cs)

/-- The digits in front of a text, and the text behind them. -/
def takeDigits (cs : List Char) : List Char × List Char :=
  (cs.takeWhile isDigit, cs.dropWhile isDigit)

/-- The digits before and after the point, one of them at least, and the text behind them. -/
def takeMantissa (cs : List Char) : Option ((List Char × List Char) × List Char) :=
  match takeDigits cs with
  | ([], '.' :: rest) =>
    match takeDigits rest with
    | ([], _) => none
    | (fraction, rest) => some (([], fraction), rest)
  | ([], _) => none
  | (whole, '.' :: rest) =>
    let (fraction, rest) := takeDigits rest
    some ((whole, fraction), rest)
  | (whole, rest) => some ((whole, []), rest)

/-- A whole text as an exponent; the empty text is the exponent zero. -/
def exponentOf? : List Char → Option Int
  | [] => some 0
  | c :: cs =>
    if c = 'e' ∨ c = 'E' then
      let (negative, cs) := takeSign cs
      match takeDigits cs with
      | ([], _) | (_, _ :: _) => none
      | (digits, []) => some (if negative then -(ofDigits digits) else ofDigits digits)
    else none

/-- A text as a decimal literal. -/
def Literal.of? (cs : List Char) : Option Literal := do
  let (negative, cs) := takeSign cs
  let ((whole, fraction), rest) ← takeMantissa cs
  let exponent ← exponentOf? rest
  return ⟨negative, ofDigits (whole ++ fraction), exponent - fraction.length⟩

/-! ### Values -/

/-- The nearest number of 64 bits. -/
def Literal.value (l : Literal) : Float :=
  let x := Float.ofScientific l.mantissa (l.exponent < 0) l.exponent.natAbs
  if l.negative then -x else x

/-- The nearest number of 32 bits, as one of 64 bits. -/
def Literal.singleValue (l : Literal) : Float :=
  let x := (Float32.ofScientific l.mantissa (l.exponent < 0) l.exponent.natAbs).toFloat
  if l.negative then -x else x

/-- A text as a number, if it is a decimal literal. -/
def parse? (cs : List Char) : Option Float :=
  (Literal.of? cs).map Literal.value

end PocketLisp.Number
