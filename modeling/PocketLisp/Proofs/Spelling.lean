/-
PocketLisp/Proofs/Spelling.lean

How decimal literals are spelled.

The grammar stands on its own: a sign or none, a mantissa with one digit at
least, an exponent or none, and nothing in front, between or behind.  What
counts as a digit is a parameter of it, since a pattern may let in digits of
every script where the conversion behind it knows only ten of them.

Main results: a text is taken for a literal exactly if the grammar spells it
(`of?_eq_some_iff`), also where a pattern over more digits and a conversion of
its own decide together, and an atom is a symbol exactly if it is spelled by
none (`parse?_eq_some_iff_spells`).
-/
import Mathlib.Tactic.ByContra
import PocketLisp.HostValue
import PocketLisp.Proofs.Lexing

namespace PocketLisp

namespace Number

/-! ### The grammar -/

section Grammar

variable (digit : Char → Bool)

/-- A run of digits, one at least. -/
def Digits (cs : List Char) : Prop := cs ≠ [] ∧ ∀ c ∈ cs, digit c = true

/-- A sign or none, and whether it is the negative one. -/
inductive SpellsSign : Bool → List Char → Prop
  | none : SpellsSign false []
  | plus : SpellsSign false ['+']
  | minus : SpellsSign true ['-']

/-- Digits with a point behind or among them or none, or a point and digits; the digits before and
after the point. -/
inductive SpellsMantissa : List Char → List Char → List Char → Prop
  | plain {whole : List Char} : Digits digit whole → SpellsMantissa whole [] whole
  | pointed {whole fraction : List Char} : Digits digit whole → (∀ c ∈ fraction, digit c = true) →
      SpellsMantissa whole fraction (whole ++ '.' :: fraction)
  | bare {fraction : List Char} : Digits digit fraction →
      SpellsMantissa [] fraction ('.' :: fraction)

/-- A mark, a sign or none, and digits; or nothing, which is the exponent zero. -/
inductive SpellsExponent : Int → List Char → Prop
  | none : SpellsExponent 0 []
  | marked {mark : Char} {negative : Bool} {sign digits : List Char} : mark = 'e' ∨ mark = 'E' →
      SpellsSign negative sign → Digits digit digits →
      SpellsExponent (if negative then -(ofDigits digits) else ofDigits digits)
        (mark :: (sign ++ digits))

/-- A text that is a literal, from its first character to its last one. -/
inductive Spells : Literal → List Char → Prop
  | literal {negative : Bool} {sign whole fraction mantissa exponent : List Char} {e : Int} :
      SpellsSign negative sign → SpellsMantissa digit whole fraction mantissa →
      SpellsExponent digit e exponent →
      Spells ⟨negative, ofDigits (whole ++ fraction), e - fraction.length⟩
        (sign ++ (mantissa ++ exponent))

/-- A text that is spelled as a literal. -/
def Spelled (cs : List Char) : Prop := ∃ l, Spells digit l cs

end Grammar

/-! ### A literal is taken apart as it is spelled -/

section Parts

variable {cs rest : List Char}

theorem takeSign_append {negative : Bool} {sign : List Char} (h : SpellsSign negative sign)
    (hrest : ∀ c ∈ rest.head?, c ≠ '+' ∧ c ≠ '-') : takeSign (sign ++ rest) = (negative, rest) := by
  cases h with
  | plus | minus => rfl
  | none =>
    rw [List.nil_append]
    fun_cases takeSign rest with
    | case1 => exact absurd rfl (hrest '-' rfl).2
    | case2 => exact absurd rfl (hrest '+' rfl).1
    | case3 => rfl

theorem SpellsSign.mem {negative : Bool} {sign : List Char} (h : SpellsSign negative sign) :
    ∀ c ∈ sign, c = '+' ∨ c = '-' := by
  cases h <;> simp

theorem exists_sign (cs : List Char) :
    ∃ sign, SpellsSign (takeSign cs).1 sign ∧ cs = sign ++ (takeSign cs).2 := by
  fun_cases takeSign cs with
  | case1 => exact ⟨_, .minus, rfl⟩
  | case2 => exact ⟨_, .plus, rfl⟩
  | case3 => exact ⟨_, .none, rfl⟩

theorem of_takeDigits {digits : List Char} (h : takeDigits cs = (digits, rest)) :
    cs = digits ++ rest ∧ ∀ c ∈ digits, isDigit c = true := by
  cases h
  exact ⟨List.takeWhile_append_dropWhile.symm, fun c hc =>
    List.all_eq_true.mp List.all_takeWhile c hc⟩

theorem takeMantissa_append {whole fraction mantissa : List Char}
    (h : SpellsMantissa isDigit whole fraction mantissa)
    (hrest : ∀ c ∈ rest.head?, isDigit c = false ∧ c ≠ '.') :
    takeMantissa (mantissa ++ rest) = some ((whole, fraction), rest) := by
  have hbound : ∀ c ∈ rest.head?, isDigit c = false := fun c hc => (hrest c hc).1
  -- digits alone, digits around a point, and digits behind a point only
  cases h with
  | plain hwhole =>
    obtain ⟨c, cs, rfl⟩ := List.exists_cons_of_ne_nil hwhole.1
    rw [takeMantissa, takeDigits_append hwhole.2 hbound]
    rcases rest with - | ⟨d, rest⟩
    · rfl
    · have hpoint : d ≠ '.' := (hrest d rfl).2
      simp [hpoint]
  | pointed hwhole hfraction =>
    have hdigits := takeDigits_point hwhole.2 (fraction ++ rest)
    rw [show whole ++ '.' :: fraction ++ rest = whole ++ '.' :: (fraction ++ rest) from
      List.append_assoc .., takeMantissa, hdigits]
    simp [takeDigits_append hfraction hbound, hwhole.1]
  | bare hfraction =>
    have hnone : ∀ c ∈ ([] : List Char), isDigit c = true := by simp
    have hdigits : takeDigits ('.' :: fraction ++ rest) = ([], '.' :: (fraction ++ rest)) :=
      takeDigits_point hnone _
    rw [takeMantissa, hdigits]
    simp [takeDigits_append hfraction.2 hbound, hfraction.1]

theorem exists_mantissa {whole fraction : List Char}
    (h : takeMantissa cs = some ((whole, fraction), rest)) :
    ∃ mantissa, SpellsMantissa isDigit whole fraction mantissa ∧ cs = mantissa ++ rest := by
  fun_cases takeMantissa cs with
  -- a point without digits is no mantissa, and neither is nothing at all
  | case1 ds hds _ hnone => simp [takeMantissa, hds, hnone] at h
  | case2 ds hds fraction' rest' hne hfraction =>
    simp only [takeMantissa, hds, hfraction, Option.some.injEq, Prod.mk.injEq] at h
    obtain ⟨⟨rfl, rfl⟩, rfl⟩ := h
    obtain ⟨rfl, -⟩ := of_takeDigits hds
    obtain ⟨rfl, hdigits⟩ := of_takeDigits hfraction
    exact ⟨_, .bare ⟨hne, hdigits⟩, rfl⟩
  | case3 ds hno hds => simp [takeMantissa, hds] at h
  | case4 whole' ds hne hds fraction' rest' hfraction =>
    simp only [takeMantissa, hds, hfraction, Option.some.injEq, Prod.mk.injEq] at h
    obtain ⟨⟨rfl, rfl⟩, rfl⟩ := h
    obtain ⟨rfl, hwhole⟩ := of_takeDigits hds
    obtain ⟨rfl, hdigits⟩ := of_takeDigits hfraction
    exact ⟨_, .pointed ⟨hne, hwhole⟩ hdigits, by simp⟩
  | case5 whole' rest' _ hne hno hds =>
    simp only [takeMantissa, hds, Option.some.injEq, Prod.mk.injEq] at h
    obtain ⟨⟨rfl, rfl⟩, rfl⟩ := h
    obtain ⟨rfl, hwhole⟩ := of_takeDigits hds
    exact ⟨_, .plain ⟨hne, hwhole⟩, rfl⟩

/-- A mark, a sign or none, and digits are an exponent only if nothing is behind them. -/
theorem exponentOf?_append {mark : Char} {negative : Bool} {sign digits : List Char}
    (hmark : mark = 'e' ∨ mark = 'E') (hsign : SpellsSign negative sign)
    (hdigits : Digits isDigit digits) (hrest : ∀ c ∈ rest.head?, isDigit c = false) :
    exponentOf? (mark :: (sign ++ (digits ++ rest))) =
      if rest.isEmpty then some (if negative then -(ofDigits digits : Int) else ofDigits digits)
      else none := by
  obtain ⟨c, ds, rfl⟩ := List.exists_cons_of_ne_nil hdigits.1
  have hdigit : isDigit c = true := hdigits.2 c (by simp)
  -- a digit is no sign, so the sign ends where it is spelled to end
  have htake : takeSign (sign ++ (c :: ds ++ rest)) = (negative, c :: ds ++ rest) := by
    refine takeSign_append hsign ?_
    rintro _ ⟨⟩
    constructor <;> rintro rfl <;> revert hdigit <;> decide
  rw [exponentOf?, if_pos hmark, htake]
  dsimp only
  rw [takeDigits_append hdigits.2 hrest]
  cases rest <;> rfl

theorem exponentOf?_of_spells {e : Int} (h : SpellsExponent isDigit e cs) :
    exponentOf? cs = some e := by
  cases h with
  | none => rfl
  | marked hmark hsign hdigits =>
    have happend := exponentOf?_append hmark hsign hdigits
      (show ∀ c ∈ ([] : List Char).head?, _ by simp)
    rwa [List.append_nil] at happend

theorem spells_of_exponentOf? {e : Int} (h : exponentOf? cs = some e) :
    SpellsExponent isDigit e cs := by
  fun_cases exponentOf? cs with
  | case1 =>
    cases h
    exact .none
  | case2 c cs hc negative ds hsign _ hnone => simp [exponentOf?, hc, hsign, hnone] at h
  | case3 c cs hc negative ds hsign _ _ _ _ hmore => simp [exponentOf?, hc, hsign, hmore] at h
  | case4 c cs hc negative ds hsign digits hne hdigits =>
    -- the one way to succeed with a mark: digits up to the end
    simp only [exponentOf?, hc, hsign, hdigits, if_true, Option.some.injEq] at h
    obtain ⟨sign, hspells, hcs⟩ := exists_sign cs
    obtain ⟨rfl, hall⟩ := of_takeDigits hdigits
    rw [hsign] at hspells hcs
    rw [hcs, List.append_nil, ← h]
    exact .marked hc hspells ⟨hne, hall⟩
  | case5 c cs hc => simp [exponentOf?, hc] at h

/-- A mantissa starts with a digit or with the point. -/
theorem SpellsMantissa.head? {whole fraction mantissa : List Char}
    (h : SpellsMantissa isDigit whole fraction mantissa) :
    ∃ c ∈ mantissa.head?, isDigit c = true ∨ c = '.' := by
  have hfirst : ∀ cs ds, Digits isDigit cs →
      ∃ c ∈ (cs ++ ds).head?, isDigit c = true ∨ c = '.' := by
    intro cs ds hcs
    obtain ⟨c, cs, rfl⟩ := List.exists_cons_of_ne_nil hcs.1
    exact ⟨c, rfl, .inl (hcs.2 c (by simp))⟩
  cases h with
  | plain hwhole => simpa using hfirst _ [] hwhole
  | pointed hwhole _ => exact hfirst _ _ hwhole
  | bare _ => exact ⟨'.', rfl, .inr rfl⟩

/-- An exponent continues neither the digits in front of it nor the point. -/
theorem SpellsExponent.head? {e : Int} (h : SpellsExponent isDigit e cs) :
    ∀ c ∈ cs.head?, c = 'e' ∨ c = 'E' := by
  cases h with
  | none => nofun
  | marked hmark _ _ =>
    rintro c ⟨⟩
    exact hmark

end Parts

/-- Behind a sign and a mantissa, the rest decides as an exponent. -/
theorem of?_append {negative : Bool} {sign whole fraction mantissa rest : List Char}
    (hsign : SpellsSign negative sign) (hmantissa : SpellsMantissa isDigit whole fraction mantissa)
    (hrest : ∀ c ∈ rest.head?, isDigit c = false ∧ c ≠ '.') :
    Literal.of? (sign ++ (mantissa ++ rest)) = (exponentOf? rest).map fun e =>
      ⟨negative, ofDigits (whole ++ fraction), e - fraction.length⟩ := by
  obtain ⟨c, hc, hfirst⟩ := hmantissa.head?
  -- a mantissa starts with a digit or a point, so the sign is taken whole
  have htake : takeSign (sign ++ (mantissa ++ rest)) = (negative, mantissa ++ rest) := by
    refine takeSign_append hsign fun d hd => ?_
    obtain ⟨ms, rfl⟩ := List.head?_eq_some_iff.mp hc
    obtain rfl : c = d := by simpa using hd
    constructor <;> rintro rfl <;> revert hfirst <;> decide
  rw [Literal.of?, htake]
  simp only [takeMantissa_append hmantissa hrest, Option.bind_eq_bind, Option.bind_some,
    Option.pure_def]
  cases exponentOf? rest <;> rfl

/-- A text is taken for a literal exactly if it is spelled as this literal. -/
theorem of?_eq_some_iff {l : Literal} {cs : List Char} :
    Literal.of? cs = some l ↔ Spells isDigit l cs := by
  constructor
  · intro h
    simp only [Literal.of?, Option.bind_eq_bind, Option.bind_eq_some_iff, Option.pure_def,
      Option.some.injEq] at h
    -- the parts in the order in which they are taken
    obtain ⟨⟨⟨whole, fraction⟩, rest⟩, hmantissa, e, hexponent, rfl⟩ := h
    obtain ⟨sign, hsign, hcs⟩ := exists_sign cs
    obtain ⟨mantissa, hspells, hrest⟩ := exists_mantissa hmantissa
    have happend : cs = sign ++ (mantissa ++ rest) := hcs.trans (by rw [hrest])
    rw [happend] at hsign ⊢
    exact .literal hsign hspells (spells_of_exponentOf? hexponent)
  · intro h
    cases h with
    | literal hsign hmantissa hexponent =>
      rw [of?_append hsign hmantissa, exponentOf?_of_spells hexponent]
      · rfl
      · intro c hc
        rcases hexponent.head? c hc with rfl | rfl <;> decide

theorem parse?_of_spells {l : Literal} {cs : List Char} (h : Spells isDigit l cs) :
    parse? cs = some l.value := by
  rw [parse?, of?_eq_some_iff.mpr h]
  rfl

theorem exists_spells_of_parse? {cs : List Char} {x : Float} (h : parse? cs = some x) :
    ∃ l, Spells isDigit l cs ∧ l.value = x := by
  obtain ⟨l, hl, hx⟩ := Option.map_eq_some_iff.mp h
  exact ⟨l, of?_eq_some_iff.mp hl, hx⟩

theorem parse?_eq_none {cs : List Char} (h : ¬ Spelled isDigit cs) : parse? cs = none := by
  rcases hparse : parse? cs with - | x
  · rfl
  · obtain ⟨l, hl, -⟩ := exists_spells_of_parse? hparse
    exact absurd ⟨l, hl⟩ h

/-! ### What is no literal -/

/-- Every literal has a digit. -/
theorem Spelled.exists_digit {digit : Char → Bool} {cs : List Char} (h : Spelled digit cs) :
    ∃ c ∈ cs, digit c = true := by
  have hfirst : ∀ ds : List Char, Digits digit ds → ∃ c ∈ ds, digit c = true := fun ds hds =>
    ⟨ds.head hds.1, ds.head_mem hds.1, hds.2 _ (ds.head_mem hds.1)⟩
  obtain ⟨l, ⟨-, hmantissa, -⟩⟩ := h
  cases hmantissa with
  | plain hwhole | pointed hwhole _ =>
    obtain ⟨c, hc, hdigit⟩ := hfirst _ hwhole
    exact ⟨c, by simp [hc], hdigit⟩
  | bare hfraction =>
    obtain ⟨c, hc, hdigit⟩ := hfirst _ hfraction
    exact ⟨c, by simp [hc], hdigit⟩

theorem Spelled.isLiteralChar {cs : List Char} (h : Spelled isDigit cs) :
    ∀ c ∈ cs, isLiteralChar c = true := by
  obtain ⟨l, hl⟩ := h
  exact (literal_of_parse? (parse?_of_spells hl)).2

theorem ascii_of_isLiteralChar {c : Char} (h : isLiteralChar c = true) : c.toNat < 0x80 := by
  simp only [isLiteralChar, isDigit, Bool.or_eq_true, Bool.and_eq_true, beq_iff_eq,
    decide_eq_true_eq, ← Char.toNat_inj, Char.le_def, UInt32.le_iff_toNat_le, Char.toNat_val,
    Char.reduceToNat] at h
  omega

/-- Nothing but a digit, a point or the mark of an exponent continues a literal. -/
theorem Spelled.not_append {front back : List Char} {c : Char} (h : Spelled isDigit front)
    (hdigit : isDigit c = false) (hc : c ≠ '.' ∧ c ≠ 'e' ∧ c ≠ 'E') :
    ¬ Spelled isDigit (front ++ c :: back) := by
  obtain ⟨l, h⟩ := h
  rintro ⟨l', hl'⟩
  rw [← of?_eq_some_iff] at hl'
  cases h with
  | literal hsign hmantissa hexponent =>
    rw [List.append_assoc, List.append_assoc] at hl'
    -- the front ends with its mantissa or with its exponent, and neither goes on with c
    cases hexponent with
    | none =>
      rw [List.nil_append, of?_append hsign hmantissa] at hl'
      · simp [exponentOf?, hc.2] at hl'
      · rintro _ ⟨⟩
        exact ⟨hdigit, hc.1⟩
    | @marked mark negative sign digits hmark hsign' hdigits =>
      rw [List.cons_append, List.append_assoc, of?_append hsign hmantissa,
        exponentOf?_append hmark hsign' hdigits] at hl'
      · simp at hl'
      · rintro _ ⟨⟩
        exact hdigit
      · rintro _ ⟨⟩
        rcases hmark with rfl | rfl <;> decide

/-! ### Other digits -/

/-- Only the characters that a text has decide whether it is spelled by digits of a class. -/
theorem Spells.of_digits {digit digit' : Char → Bool} {l : Literal} {cs : List Char}
    (h : Spells digit l cs) (hcs : ∀ c ∈ cs, digit c = true → digit' c = true) :
    Spells digit' l cs := by
  have hdigits : ∀ ds : List Char, Digits digit ds → ds ⊆ cs → Digits digit' ds :=
    fun ds hds hsub => ⟨hds.1, fun c hc => hcs c (hsub hc) (hds.2 c hc)⟩
  cases h with
  | @literal negative sign whole fraction mantissa exponent e hsign hmantissa hexponent =>
    refine .literal hsign ?_ ?_
    · have hsub : mantissa ⊆ sign ++ (mantissa ++ exponent) :=
        fun c hc => by simp [hc]
      -- each part of the spelling is part of the characters
      cases hmantissa with
      | plain hwhole => exact .plain (hdigits _ hwhole hsub)
      | pointed hwhole hfraction =>
        refine .pointed (hdigits _ hwhole fun c hc => hsub (by simp [hc])) fun c hc => ?_
        exact hcs c (hsub (by simp [hc])) (hfraction c hc)
      | bare hfraction => exact .bare (hdigits _ hfraction fun c hc => hsub (by simp [hc]))
    · cases hexponent with
      | none => exact .none
      | marked hmark hsign' hdigits' =>
        exact .marked hmark hsign' (hdigits _ hdigits' fun c hc => by simp [hc])

/-- A text that the grammar spells by more digits, and in which all of them are ASCII digits. -/
theorem Spells.ascii {digit : Char → Bool} {l : Literal} {cs : List Char} (h : Spells digit l cs)
    (hdigit : ∀ c : Char, c.toNat < 0x80 → digit c = isDigit c)
    (hcs : ¬ ∃ c ∈ cs, digit c = true ∧ 0x80 ≤ c.toNat) : Spells isDigit l cs := by
  refine h.of_digits fun c hc hdigit' => ?_
  have hascii : c.toNat < 0x80 := Nat.lt_of_not_le fun hlarge => hcs ⟨c, hc, hdigit', hlarge⟩
  exact hdigit c hascii ▸ hdigit'

/-- The ASCII digits are digits of every class that agrees with them on ASCII. -/
theorem Spells.of_ascii {digit : Char → Bool} {l : Literal} {cs : List Char}
    (h : Spells isDigit l cs) (hdigit : ∀ c : Char, c.toNat < 0x80 → digit c = isDigit c) :
    Spells digit l cs := by
  refine h.of_digits fun c _ hc => ?_
  exact (hdigit c (ascii_of_isLiteralChar (isLiteralChar_of_isDigit hc))).trans hc

/-! ### The numbers of the host -/

theorem hostNumber?_of_spells {value : Literal → Float} {l : Literal} {cs : List Char}
    (h : Spells isDigit l cs) : hostNumber? value cs = some (value l) := by
  rw [hostNumber?, of?_eq_some_iff.mpr h]

/-- The host has no number with a character beyond ASCII in it. -/
theorem hostNumber?_of_large {value : Literal → Float} {cs : List Char} {c : Char} (hc : c ∈ cs)
    (hlarge : 0x80 ≤ c.toNat) : hostNumber? value cs = none := by
  have hliteral : Literal.of? cs = none := by
    by_contra hsome
    obtain ⟨l, hl⟩ := Option.ne_none_iff_exists'.mp hsome
    have hascii := ascii_of_isLiteralChar (Spelled.isLiteralChar ⟨l, of?_eq_some_iff.mp hl⟩ c hc)
    omega
  -- a sign is an ASCII character, so the character is one of the name
  have hname : c ∈ (takeSign cs).2 := by
    obtain ⟨sign, hsign, hcs⟩ := exists_sign cs
    rw [hcs] at hc
    rcases List.mem_append.mp hc with hmem | hmem
    · rcases hsign.mem c hmem with rfl | rfl <;> exact absurd hlarge (by decide)
    · exact hmem
  have hlower : c ∈ (takeSign cs).2.map Char.toLower := by
    have hupper : ¬ (c.val ≥ 'A'.val ∧ c.val ≤ 'Z'.val) := by
      simp only [UInt32.le_iff_toNat_le, Char.toNat_val, Char.reduceVal, UInt32.reduceToNat]
      omega
    exact List.mem_map.mpr ⟨c, hname, dif_neg hupper⟩
  have hnone : namedNumber? (takeSign cs).2 = none := by
    have hne : ∀ name : List Char, (∀ d ∈ name, d.toNat < 0x80) →
        (takeSign cs).2.map Char.toLower ≠ name := by
      rintro name hascii rfl
      exact Nat.not_lt_of_le hlarge (hascii c hlower)
    rw [namedNumber?, if_neg, if_neg (hne _ (by simp))]
    exact not_or.mpr ⟨hne _ (by simp), hne _ (by simp)⟩
  rw [hostNumber?, hliteral]
  simp [hnone]

/-! ### What is a number -/

section Main

variable {digit : Char → Bool} {host : List Char → Option Float}

/-- A text is a number exactly if it is spelled as a decimal literal, and the number is the value of
the literal.  A pattern over digits of every script, and a conversion that knows the literals and no
text with a digit beyond ASCII, accept the same texts together, with the same values.  Where tokens
are taken, a literal is a number and any other word is a symbol: one that has no digit, one that has
a character of no literal, and one that goes on behind a literal. -/
theorem parse?_eq_some_iff_spells (hdigit : ∀ c : Char, c.toNat < 0x80 → digit c = isDigit c)
    (hliteral : ∀ l cs, Spells isDigit l cs → host cs = some l.value)
    (hlarge : ∀ cs, (∃ c ∈ cs, digit c = true ∧ 0x80 ≤ c.toNat) → host cs = none)
    (cs : List Char) :
    (∀ x, parse? cs = some x ↔ ∃ l, Spells isDigit l cs ∧ l.value = x) ∧
      (∀ x, parse? cs = some x ↔ Spelled digit cs ∧ host cs = some x) ∧
      (∀ rest, Boundary rest →
        (∀ l, Spells isDigit l cs → Token.next (cs ++ rest) = (.ok (.number l.value), rest)) ∧
        (Word cs → ¬ Spelled isDigit cs →
          Token.next (cs ++ rest) = (.ok (.symbol (String.ofList cs)), rest))) ∧
      ((∀ c ∈ cs, isDigit c = false) ∨ (∃ c ∈ cs, isLiteralChar c = false) ∨
          (∃ front c back, cs = front ++ c :: back ∧ Spelled isDigit front ∧
            isDigit c = false ∧ c ≠ '.' ∧ c ≠ 'e' ∧ c ≠ 'E') → ¬ Spelled isDigit cs) := by
  refine ⟨fun x => ⟨exists_spells_of_parse?, ?_⟩, fun x => ⟨fun h => ?_, ?_⟩,
    fun rest hrest => ⟨fun l hl => ?_, fun hword hnone => ?_⟩, ?_⟩
  · rintro ⟨l, hl, rfl⟩
    exact parse?_of_spells hl
  · obtain ⟨l, hl, rfl⟩ := exists_spells_of_parse? h
    exact ⟨⟨l, hl.of_ascii hdigit⟩, hliteral l cs hl⟩
  · rintro ⟨⟨l, hl⟩, hx⟩
    -- the host's conversion would have refused a digit that is not ASCII
    have hascii : ¬ ∃ c ∈ cs, digit c = true ∧ 0x80 ≤ c.toNat := fun hsome =>
      absurd ((hlarge cs hsome).symm.trans hx) nofun
    have hspells := hl.ascii hdigit hascii
    exact (parse?_of_spells hspells).trans ((hliteral l cs hspells).symm.trans hx)
  · have hparse := parse?_of_spells hl
    rw [Token.next_word (Word.of_parse? hparse) hrest, Token.ofAtom, hparse]
  · rw [Token.next_word hword hrest, Token.ofAtom, parse?_eq_none hnone]
  · rintro (hnone | ⟨c, hc, hother⟩ | ⟨front, c, back, rfl, hfront, hc, hmarks⟩) hspelled
    · obtain ⟨c, hc, hsome⟩ := hspelled.exists_digit
      exact absurd ((hnone c hc).symm.trans hsome) nofun
    · exact absurd (hother.symm.trans (hspelled.isLiteralChar c hc)) nofun
    · exact hfront.not_append hc hmarks hspelled

/-- With Devanagari digits among those of the pattern: a number of such digits fits the pattern,
but is a symbol; a literal with all its parts is a number. -/
theorem parse?_eq_some_iff_spells_of_devanagari :
    let digit : Char → Bool := fun c => isDigit c || (0x0966 ≤ c.toNat && c.toNat ≤ 0x096F)
    let three := ['३']
    let literal := "-1.5e+3".toList
    Spelled digit three ∧ parse? three = none ∧
      Token.next three = (.ok (.symbol (String.ofList three)), []) ∧
      Spelled digit literal ∧ parse? literal = some (Literal.value ⟨true, 15, 2⟩) ∧
      Token.next literal = (.ok (.number (Literal.value ⟨true, 15, 2⟩)), []) := by
  intro digit three literal
  have hdigit : ∀ c : Char, c.toNat < 0x80 → digit c = isDigit c := by
    intro c hc
    have hsmall : ¬ 0x0966 ≤ c.toNat := by omega
    simp [digit, hsmall]
  have hlarge : ∀ cs : List Char, (∃ c ∈ cs, digit c = true ∧ 0x80 ≤ c.toNat) →
      hostNumber? Literal.value cs = none := by
    rintro cs ⟨c, hc, -, hlarge⟩
    exact hostNumber?_of_large hc hlarge
  have hall : ∀ cs, _ := parse?_eq_some_iff_spells hdigit
    (fun _ _ => @hostNumber?_of_spells Literal.value _ _) hlarge
  have hspells : Spells isDigit ⟨true, 15, 2⟩ literal := of?_eq_some_iff.mp (by decide +kernel)
  obtain ⟨hvalue, hboth, htoken, hother⟩ := hall three
  obtain ⟨hvalue', hboth', htoken', -⟩ := hall literal
  have hnone : ¬ Spelled isDigit three := hother (.inl (by simp [three, isDigit]))
  have hparse : parse? literal = some _ := (hvalue' _).mpr ⟨_, hspells, rfl⟩
  have hdigits : Digits digit three := ⟨List.cons_ne_nil _ _, by simp [three, digit]⟩
  have hpattern : Spelled digit three := ⟨_, .literal .none (.plain hdigits) .none⟩
  have hword : Word three := .of_all (List.cons_ne_nil _ _) (by decide) (by decide)
  refine ⟨hpattern, ?_, (htoken [] boundary_nil).2 hword hnone, ((hboth' _).mp hparse).1, hparse,
    (htoken' [] boundary_nil).1 _ hspells⟩
  rcases hsome : parse? three with - | x
  · rfl
  · obtain ⟨l, hl, -⟩ := (hvalue x).mp hsome
    exact absurd ⟨l, hl⟩ hnone

end Main

end Number

end PocketLisp
