/-
PocketLisp/Text/Normal.lean

Unicode normalization form C.  A text is decomposed character by character,
every run of marks is put into the order of the combining classes, and what
can be composed again is composed, from the left.

`compose` works on a text whose marks are in order.  It keeps the last
character of class zero, the starter, and the marks that stand between the
starter and the next character; a character is composed with the starter
unless a mark of the same or a higher class stands between them.
-/
import PocketLisp.Text.Decomposition
import PocketLisp.Text.CombiningClass

namespace PocketLisp.Text

/-! ### Hangul syllables -/

/-- The parts of a syllable: a leading consonant, a vowel and perhaps a tail. -/
def hangulParts (n : Nat) : List Nat :=
  let s := n - 0xAC00
  let lead := 0x1100 + s / 588
  let vowel := 0x1161 + s % 588 / 28
  if s % 28 = 0 then [lead, vowel] else [lead, vowel, 0x11A7 + s % 28]

/-- The syllable of a leading consonant and a vowel, or of an open syllable and a tail. -/
def hangulCompose (a b : Nat) : Option Nat :=
  if 0x1100 ≤ a ∧ a < 0x1113 ∧ 0x1161 ≤ b ∧ b < 0x1176 then
    some (0xAC00 + ((a - 0x1100) * 21 + (b - 0x1161)) * 28)
  else if 0xAC00 ≤ a ∧ a < 0xD7A4 ∧ (a - 0xAC00) % 28 = 0 ∧ 0x11A7 < b ∧ b < 0x11C3 then
    some (a + (b - 0x11A7))
  else none

/-! ### Decomposition -/

/-- One step of canonical decomposition, if the character has one. -/
def decomposeStep (n : Nat) : Option (List Nat) :=
  match Decomposition.composites.find? fun r => r.1 == n with
  | some (_, a, b) => some [a, b]
  | none => match Decomposition.splittings.find? fun r => r.1 == n with
    | some (_, a, b) => some [a, b]
    | none =>
      match Decomposition.aliases.find? fun r => r.1 ≤ n && n < r.1 + r.2.length with
      | some (first, targets) => (targets[n - first]?).map fun t => [t]
      | none => none

/-- Decomposition repeated `depth` times; no mapping of Unicode needs more than four steps. -/
def decomposeWithin : (depth : Nat) → Nat → List Nat
  | 0, n => [n]
  | depth + 1, n =>
    match decomposeStep n with
    | some parts => parts.flatMap (decomposeWithin depth)
    | none => [n]

/-- The full canonical decomposition of a character. -/
def decomposeChar (c : Char) : List Char :=
  let n := c.toNat
  if n < 0xC0 then [c]
  else if 0xAC00 ≤ n ∧ n < 0xD7A4 then (hangulParts n).map Char.ofNat
  else (decomposeWithin 4 n).map Char.ofNat

/-! ### Ordering of marks -/

/-- Puts a character into a text whose marks are in order: in front of the marks of a higher
class that it meets, if it is a mark itself.  The text is given from its end. -/
def insertMark (c : Char) : List Char → List Char
  | [] => [c]
  | d :: before =>
    if combiningClass c ≠ 0 ∧ combiningClass c < combiningClass d then d :: insertMark c before
    else c :: d :: before

/-- Every run of marks in the order of the combining classes, marks of one class in the order
in which they were. -/
def orderMarks (cs : List Char) : List Char :=
  (cs.foldl (fun before c => insertMark c before) []).reverse

/-! ### Composition -/

/-- The character composed of two, if there is one. -/
def composePair (a b : Char) : Option Char :=
  match hangulCompose a.toNat b.toNat with
  | some n => some (Char.ofNat n)
  | none =>
    if b.toNat < 0x300 then none
    else match Decomposition.composites.find? fun r => r.2.1 == a.toNat && r.2.2 == b.toNat with
      | some (n, _, _) => some (Char.ofNat n)
      | none => none

/-- Composition after a starter; `marks` stand between the starter and the rest, last first. -/
def composeFrom (starter : Char) (marks : List Char) : List Char → List Char
  | [] => starter :: marks.reverse
  | c :: rest =>
    let blocked := match marks with
      | [] => false
      | m :: _ => combiningClass c ≤ combiningClass m
    match if blocked then none else composePair starter c with
    | some whole => composeFrom whole marks rest
    | none =>
      if combiningClass c = 0 then starter :: marks.reverse ++ composeFrom c [] rest
      else composeFrom starter (c :: marks) rest

/-- Canonical composition of a text whose marks are in order. -/
def compose : List Char → List Char
  | [] => []
  | c :: rest => if combiningClass c = 0 then composeFrom c [] rest else c :: compose rest

/-- Normalization form C. -/
def normalForm (cs : List Char) : List Char :=
  compose (orderMarks (cs.flatMap decomposeChar))

end PocketLisp.Text
