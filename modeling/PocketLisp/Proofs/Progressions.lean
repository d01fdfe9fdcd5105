/-
PocketLisp/Proofs/Progressions.lean

Progressions over exact arithmetic.

How many values a progression has is computed by one division and a ceiling, and
its values are computed from their places, whatever numbers these operations are
those of.  Over fractions this gives the values that come before the end, and no
others, for steps of either sign (`comes_iff`).  The same holds over other numbers as
far as the operations are those of the fractions that the numbers stand for
(`Arithmetic.Exactly`), and so for floating-point numbers where nothing is rounded.

Main result: `range_is_progression`.
-/
import PocketLisp.Proofs.NormalForm
import PocketLisp.Proofs.Ordering
import PocketLisp.Value.Sequence

namespace PocketLisp

open Number

/-! ### What comes before the end -/

/-- The value at a place of a progression comes before the end, in the direction of the step. -/
def Comes (a b c : ℚ) (i : ℕ) : Prop := 0 < c ∧ a + i * c < b ∨ c < 0 ∧ b < a + i * c

/-- The step is none, or there are more values than a list may have. -/
def Unlistable (a b c : ℚ) : Prop := c = 0 ∨ (maxProgression : ℕ∞) < {i | Comes a b c i}.encard

variable {a b c : ℚ}

/-- What comes before the end is counted by a quotient. -/
theorem comes_iff (hc : c ≠ 0) (i : ℕ) : Comes a b c i ↔ i < ⌈(b - a) / c⌉.toNat := by
  rw [Int.lt_toNat, Int.lt_ceil, Int.cast_natCast, Comes]
  rcases lt_or_gt_of_ne hc with hneg | hpos
  · simp only [hneg, hneg.not_gt, false_and, true_and, false_or]
    rw [lt_div_iff_of_neg hneg, sub_lt_iff_lt_add']
  · simp only [hpos, hpos.not_gt, false_and, true_and, or_false]
    rw [lt_div_iff₀ hpos, lt_sub_iff_add_lt']

theorem encard_comes (hc : c ≠ 0) : {i | Comes a b c i}.encard = (⌈(b - a) / c⌉.toNat : ℕ∞) := by
  have hset : {i | Comes a b c i} = (Finset.range ⌈(b - a) / c⌉.toNat : Set ℕ) := by
    ext i
    simp [comes_iff hc]
  rw [hset, Set.encard_coe_eq_coe_finsetCard, Finset.card_range]

theorem unlistable_iff (hc : c ≠ 0) : Unlistable a b c ↔ (maxProgression : ℤ) < ⌈(b - a) / c⌉ := by
  rw [Unlistable, encard_comes hc, Nat.cast_lt, or_iff_right hc, Int.lt_toNat]

/-! ### Arithmetic that is exact -/

namespace Number

/-- The arithmetic of fractions. -/
def fractions : Arithmetic ℚ where
  add := (· + ·)
  sub := (· - ·)
  mul := (· * ·)
  div := (· / ·)
  ofNat := Nat.cast
  ceil? := fun x => some ⌈x⌉
  isStep := fun x => x ≠ 0

variable {α : Type}

/-- What an arithmetic computes of a progression is what the fractions that its numbers stand for
make of it. -/
structure Arithmetic.Exactly (A : Arithmetic α) (value : α → Option ℚ) (start stop step : α)
    (a b c : ℚ) : Prop where
  isStep : A.isStep step = decide (c ≠ 0)
  length : c ≠ 0 → A.ceil? (A.div (A.sub stop start) step) = some ⌈(b - a) / c⌉
  values : ∀ i, Comes a b c i → value (A.add start (A.mul (A.ofNat i) step)) = some (a + i * c)

theorem exactly_fractions (a b c : ℚ) : fractions.Exactly some a b c a b c :=
  ⟨rfl, fun _ => rfl, fun _ _ => rfl⟩

variable {A : Arithmetic α} {value : α → Option ℚ} {start stop step : α}

theorem progression?_of_unlistable (h : A.Exactly value start stop step a b c)
    (hlong : Unlistable a b c) : A.progression? start stop step = none := by
  rw [Arithmetic.progression?, Arithmetic.count?, h.isStep]
  by_cases hc : c = 0
  · simp [hc]
  · simp [hc, h.length hc, (unlistable_iff hc).mp hlong]

theorem progression?_of_listable (h : A.Exactly value start stop step a b c)
    (hshort : ¬ Unlistable a b c) : ∃ xs, A.progression? start stop step = some xs ∧
      (∀ i, i < xs.length ↔ Comes a b c i) ∧
      ∀ (i : ℕ) x, xs[i]? = some x → value x = some (a + i * c) := by
  have hc : c ≠ 0 := fun hc => hshort (.inl hc)
  have hle := mt (unlistable_iff hc).mpr hshort
  have hlength (f : ℕ → α) : ((List.range ⌈(b - a) / c⌉.toNat).map f).length =
      ⌈(b - a) / c⌉.toNat := by
    rw [List.length_map, List.length_range]
  refine ⟨(List.range ⌈(b - a) / c⌉.toNat).map fun i => A.add start (A.mul (A.ofNat i) step),
    ?_, fun i => ?_, fun i x hx => ?_⟩
  · rw [Arithmetic.progression?, Arithmetic.count?, h.isStep, h.length hc]
    simp [hc, hle]
  · rw [hlength, comes_iff hc]
  · obtain ⟨hi, rfl⟩ := List.getElem?_eq_some_iff.mp hx
    rw [List.getElem_map, List.getElem_range]
    exact h.values i ((comes_iff hc i).mpr (hlength _ ▸ hi))

/-! ### Numbers of which nothing is rounded -/

variable {x : Float} {r : ℚ}

/-- A quotient is rounded up by adding one less than the divisor. -/
theorem ceil_natCast_div (n : ℕ) {d : ℕ} (hd : 0 < d) :
    ⌈(n / d : ℚ)⌉ = ((n + (d - 1)) / d : ℕ) := by
  have hlow := Nat.div_mul_le_self (n + (d - 1)) d
  have hhigh := Nat.lt_div_mul_add (a := n + (d - 1)) hd
  have hpos : (0 : ℚ) < d := by exact_mod_cast hd
  generalize (n + (d - 1)) / d = k at *
  have hlt : (k : ℚ) * d < n + d := by exact_mod_cast (by omega : k * d < n + d)
  have hle : (n : ℚ) ≤ k * d := by exact_mod_cast (by omega : n ≤ k * d)
  rw [Int.ceil_eq_iff, lt_div_iff₀ hpos, div_le_iff₀ hpos, Int.cast_natCast]
  constructor <;> linarith

/-- The ceiling of a number is that of the fraction that it stands for. -/
theorem ceil?_of_rational (h : rational? x = some r) : ceil? x = some ⌈r⌉ := by
  rcases rational?_cases h with ⟨s, hx, rfl⟩ | ⟨m, q, hm, -, -, hx⟩
  · rw [ceil?, hx, Int.ceil_zero]
  · have hquotient : (m : ℚ) * 2 ^ q = (m * 2 ^ q.toNat : ℕ) / (2 ^ (-q).toNat : ℕ) := by
      rw [zpow_eq_div (by norm_num), ← mul_div_assoc]
      push_cast
      rfl
    rw [ceil?]
    rcases hx with ⟨hx, rfl⟩ | ⟨hx, rfl⟩
    · rw [hx, hquotient, ceil_natCast_div _ (by positivity)]
      rfl
    · rw [hx, hquotient, Int.ceil_neg, Rat.floor_natCast_div_natCast]
      rfl

theorem isStep_of_rational (h : rational? x = some r) : floating.isStep x = decide (r ≠ 0) := by
  have hfinite : x.isFinite = true := by
    show (exact x).isFinite = true
    rcases rational?_cases h with ⟨s, hx, -⟩ | ⟨m, q, hm, -, -, ⟨hx, -⟩ | ⟨hx, -⟩⟩ <;>
      rw [hx] <;> rfl
  have heq : (x == 0.0) = ((exact x).compare (exact 0.0) == some .eq) := rfl
  rw [compare_of_rational h (rfl : rational? 0.0 = some 0)] at heq
  show (!(x == 0.0) && x.isFinite) = decide (r ≠ 0)
  rw [heq, hfinite, Bool.and_true, Bool.eq_iff_iff]
  simp

/-- No value of a progression of floating-point numbers is rounded, and the rounding of the
quotient that counts them makes no difference. -/
structure Unrounded (start stop step : Float) (a b c : ℚ) : Prop where
  rational_start : rational? start = some a
  rational_stop : rational? stop = some b
  rational_step : rational? step = some c
  quotient : c ≠ 0 → ∃ q, rational? ((stop - start) / step) = some q ∧ ⌈q⌉ = ⌈(b - a) / c⌉
  values : ∀ i, Comes a b c i → rational? (start + Float.ofNat i * step) = some (a + i * c)

theorem Unrounded.exactly {start stop step : Float} (h : Unrounded start stop step a b c) :
    floating.Exactly rational? start stop step a b c where
  isStep := isStep_of_rational h.rational_step
  length hc := by
    obtain ⟨q, hq, hceil⟩ := h.quotient hc
    rw [← hceil]
    exact ceil?_of_rational hq
  values := h.values

end Number

/-! ### Ranges -/

section Range

variable {α : Type} {A : Arithmetic α} {value : α → Option ℚ} {start stop step : α}
  {read : Value → Except Fault α} {write : α → Value} {args : List Value} {numbers : List α}

/-- A range of numbers of any arithmetic, which are told how they are read and written. -/
def Value.rangeOver (A : Arithmetic α) (read : Value → Except Fault α) (write : α → Value)
    (args : List Value) : Fresh Value := do
  let build (start stop step : α) : Fresh Value :=
    match A.progression? start stop step with
    | some xs => Fresh.list (xs.map write)
    | none => throw (.refused "range" args)
  let numbers : List α ← (args.mapM read : Except Fault (List α))
  match numbers with
  | [stop] => build (A.ofNat 0) stop (A.ofNat 1)
  | [start, stop] => build start stop (A.ofNat 1)
  | [start, stop, step] => build start stop step
  | xs => throw (.arity "range" 3 xs.length false)

/-- The ranges of programs are those of floating-point numbers. -/
theorem Value.range_eq_rangeOver :
    range = rangeOver floating (expectNumber "range") .number := by
  funext args
  have hzero : floating.ofNat 0 = 0.0 := rfl
  have hone : floating.ofNat 1 = 1.0 := rfl
  rw [range, rangeOver, hzero, hone]
  refine bind_congr fun numbers => ?_
  match numbers with
  | [] | _ :: _ :: _ :: _ :: _ => rfl
  | [_] | [_, _] | [_, _, _] =>
    dsimp only
    generalize floating.progression? _ _ _ = outcome
    cases outcome <;> rfl

/-- The start, the stop and the step that operands give: if omitted, the start is zero and the step
is one. -/
inductive Asks (A : Arithmetic α) : List α → α → α → α → Prop
  | stop {stop : α} : Asks A [stop] (A.ofNat 0) stop (A.ofNat 1)
  | start {start stop : α} : Asks A [start, stop] start stop (A.ofNat 1)
  | step {start stop step : α} : Asks A [start, stop, step] start stop step

theorem rangeOver_of_asks (hread : args.mapM read = .ok numbers)
    (h : Asks A numbers start stop step) :
    Value.rangeOver A read write args = match A.progression? start stop step with
      | some xs => Fresh.list (xs.map write)
      | none => throw (.refused "range" args) := by
  rw [Value.rangeOver, hread]
  cases h <;> rfl

/-- A list of the values, in order, that come before the end. -/
structure IsProgression (write : α → Value) (value : α → Option ℚ) (a b c : ℚ) (v : Value) :
    Prop where
  proper : v.finalTail = .nil
  length : ∀ i, i < v.cars.length ↔ Comes a b c i
  values : ∀ (i : ℕ) w, v.cars[i]? = some w → ∃ x, w = write x ∧ value x = some (a + i * c)
  empty : (∀ i, ¬ Comes a b c i) → v = .nil

/-- How a range ends: it is refused if it is unlistable, else it is a progression. -/
inductive IsRange (write : α → Value) (value : α → Option ℚ) (args : List Value) (a b c : ℚ)
    (next : ObjectId) : Except Fault Value × ObjectId → Prop
  | refused : Unlistable a b c →
      IsRange write value args a b c next (.error (.refused "range" args), next)
  | listed {v : Value} {n : ObjectId} : ¬ Unlistable a b c → IsProgression write value a b c v →
      IsRange write value args a b c next (.ok v, n)

theorem isRange_rangeOver (hread : args.mapM read = .ok numbers)
    (h : Asks A numbers start stop step) (hexact : A.Exactly value start stop step a b c)
    (next : ObjectId) :
    IsRange write value args a b c next (Value.rangeOver A read write args next) := by
  rw [rangeOver_of_asks hread h]
  -- a list that the code refuses, or one whose elements are counted and valued above
  by_cases hlong : Unlistable a b c
  · rw [progression?_of_unlistable hexact hlong]
    exact .refused hlong
  · obtain ⟨xs, hxs, hlength, hvalues⟩ := progression?_of_listable hexact hlong
    rw [hxs]
    have hcars : (Value.chain next (xs.map write).reverse .nil).1.cars = xs.map write :=
      (Value.cars_chain ..).trans (List.append_nil _)
    refine .listed hlong ⟨Value.finalTail_chain .., fun i => ?_, fun i w hw => ?_, fun hnone => ?_⟩
    · rw [hcars, List.length_map, hlength]
    · rw [hcars, List.getElem?_map, Option.map_eq_some_iff] at hw
      obtain ⟨x, hx, rfl⟩ := hw
      exact ⟨x, rfl, hvalues i x hx⟩
    · have hxs : xs = [] := List.eq_nil_of_length_eq_zero <| by
        by_contra hne
        exact hnone 0 ((hlength 0).mp (Nat.pos_of_ne_zero hne))
      rw [hxs]
      rfl

/-- A range is the list of the values that come before the end.

Over fractions it is refused exactly if the step is zero or the list would be too long, and else
has, in order, the values at the places where these come before the end.  What programs compute is
the same over floating-point numbers, and comes out the same where nothing is rounded. -/
theorem range_is_progression :
    (∀ (read : Value → Except Fault ℚ) (write : ℚ → Value) args numbers a b c next,
      args.mapM read = .ok numbers → Asks fractions numbers a b c →
      IsRange write some args a b c next (Value.rangeOver fractions read write args next)) ∧
    Value.range = Value.rangeOver floating (Value.expectNumber "range") .number ∧
    ∀ args numbers start stop step a b c next,
      args.mapM (Value.expectNumber "range") = .ok numbers →
      Asks floating numbers start stop step → Unrounded start stop step a b c →
      IsRange .number rational? args a b c next (Value.range args next) := by
  refine ⟨fun read write args numbers a b c next hread h => ?_, Value.range_eq_rangeOver, ?_⟩
  · exact isRange_rangeOver hread h (exactly_fractions a b c) next
  · intro args numbers start stop step a b c next hread h hexact
    rw [Value.range_eq_rangeOver]
    exact isRange_rangeOver hread h hexact.exactly next

end Range

/-- Five, three and one, as floating-point numbers. -/
theorem unrounded_descent : Unrounded 5.0 0.0 (-2.0) 5 0 (-2) where
  rational_start := rational?_ofNat (n := 5) (by norm_num)
  rational_stop := rfl
  rational_step := by
    have h : rational? (-2.0) = some (-(4503599627370496 * 2 ^ (-51 : ℤ))) := rfl
    norm_num [h]
  quotient _ := by
    have h : rational? ((0.0 - 5.0) / -2.0) = some (5629499534213120 * 2 ^ (-51 : ℤ)) := rfl
    exact ⟨_, h, by norm_num⟩
  values i hi := by
    -- the elements 5, 3 and 1, and none behind the stop
    have hlt : i < 3 := by
      rw [comes_iff (by norm_num)] at hi
      norm_num at hi
      exact hi
    have hfirst : rational? (5.0 + Float.ofNat 0 * -2.0) =
        some (5629499534213120 * 2 ^ (-50 : ℤ)) := rfl
    have hsecond : rational? (5.0 + Float.ofNat 1 * -2.0) =
        some (6755399441055744 * 2 ^ (-51 : ℤ)) := rfl
    have hthird : rational? (5.0 + Float.ofNat 2 * -2.0) =
        some (4503599627370496 * 2 ^ (-52 : ℤ)) := rfl
    interval_cases i
    · norm_num [hfirst]
    · norm_num [hsecond]
    · norm_num [hthird]

/-- From five down to zero by two, these are five, three and one: over fractions that are written as
a numerator and a denominator, and over the numbers of programs. -/
theorem range_is_progression_of_descent :
    let args : List Value := [.number 5.0, .number 0.0, .number (-2.0)]
    let read : Value → Except Fault ℚ := fun v =>
      (Value.expectNumber "range" v).map fun x => (rational? x).getD 0
    let write : ℚ → Value := fun q => .cons 0 (.number (Float.ofInt q.num)) (.number q.den.toFloat)
    ((args.mapM read = .ok [5, 0, -2] ∧ Asks fractions [5, 0, -2] 5 0 (-2)) ∧
      IsRange write some args 5 0 (-2) 3 (Value.rangeOver fractions read write args 3)) ∧
    ((args.mapM (Value.expectNumber "range") = .ok [5.0, 0.0, -2.0] ∧
        Asks floating [5.0, 0.0, -2.0] 5.0 0.0 (-2.0) ∧ Unrounded 5.0 0.0 (-2.0) 5 0 (-2)) ∧
      Value.range args 3 = (.ok (.cons 5 (.number 5.0) (.cons 4 (.number 3.0)
        (.cons 3 (.number 1.0) .nil))), 6) ∧
      IsRange .number rational? args 5 0 (-2) 3 (Value.range args 3)) := by
  intro args read write
  obtain ⟨hstart, hstop, hstep, -, -⟩ := unrounded_descent
  have hread : args.mapM read = .ok [5, 0, -2] := by
    show Except.ok [(rational? 5.0).getD 0, (rational? 0.0).getD 0, (rational? (-2.0)).getD 0] = _
    rw [hstart, hstop, hstep]
    rfl
  have hnumbers : args.mapM (Value.expectNumber "range") = .ok [5.0, 0.0, -2.0] := rfl
  obtain ⟨hfractions, -, hfloats⟩ := range_is_progression
  have hoverFractions := hfractions read write args _ _ _ _ 3 hread .step
  have hoverFloats := hfloats args _ _ _ _ _ _ _ 3 hnumbers .step unrounded_descent
  exact ⟨⟨⟨hread, .step⟩, hoverFractions⟩, ⟨hnumbers, .step, unrounded_descent⟩, rfl, hoverFloats⟩

end PocketLisp
