/-
PocketLisp/Proofs/Shortest.lean

The written form of a number reads back to the number.

The search for the fewest digits takes a decimal in the interval of the number
(`contains_around_iff`), and always finds one: in a grid of seventeen digits, neighbours are less
far apart than the interval is wide (`grid_of_seventeen`).  The decimal keeps its value when it is
stripped of zeros and laid out (`value_stripped`, `of?_positional`), and a literal of this value is
read as the number in whose interval it lies (`ofScientific_eq`).

Main result: `readsBack`.
-/
import PocketLisp.Number.Written
import PocketLisp.Proofs.Rounding
import PocketLisp.Proofs.RoundTrip

namespace PocketLisp.Number

open Float.Model.UnpackedFloat (Sign)

variable {m : Nat} {q : Int}

/-! ### The interval of a number -/

/-- The value of a decimal. -/
def Decimal.value (d : Decimal) : ℚ := d.digits * 10 ^ d.exponent

theorem Decimal.value_eq (d : Decimal) : d.value = d.fraction.1 / d.fraction.2 := by
  rw [value, fraction, zpow_eq_div (by norm_num), Nat.pow_eq, Nat.pow_eq]
  push_cast
  ring

/-- The ends of an interval are multiples of a quarter of the unit. -/
theorem quarters_eq (n : Nat) (q : Int) :
    ((n * Nat.pow 2 (q - 2).toNat : Nat) : ℚ) / (Nat.pow 2 (2 - q).toNat : Nat) =
      n / 4 * 2 ^ q := by
  have hpow : (2 : ℚ) ^ (q - 2) = 2 ^ q / 4 := by
    rw [zpow_sub₀ (by norm_num)]
    norm_num
  have hquarter := (zpow_eq_div (b := 2) (by norm_num) (q - 2)).symm.trans hpow
  rw [neg_sub] at hquarter
  rw [Nat.pow_eq, Nat.pow_eq]
  push_cast
  rw [mul_div_assoc, hquarter]
  ring

theorem around_value (m : Nat) (q : Int) :
    ((Interval.around m q).value : ℚ) / (Interval.around m q).denominator = m * 2 ^ q := by
  rw [Interval.around, quarters_eq]
  push_cast
  ring

theorem around_low (hm : 0 < m) (q : Int) :
    ((Interval.around m q).low : ℚ) / (Interval.around m q).denominator =
      (m - reach m q) * 2 ^ q := by
  rw [Interval.around, quarters_eq, reach, Nat.pow_eq]
  by_cases h : m = 2 ^ 52 ∧ -1074 < q
  · rw [if_pos h, if_pos h, Nat.cast_sub (by omega)]
    push_cast
    ring
  · rw [if_neg h, if_neg h, Nat.cast_sub (by omega)]
    push_cast
    ring

theorem around_high (m : Nat) (q : Int) :
    ((Interval.around m q).high : ℚ) / (Interval.around m q).denominator = (m + 1 / 2) * 2 ^ q := by
  rw [Interval.around, quarters_eq]
  push_cast
  ring

/-- A decimal is found to lie in the interval of a number if it is rounded to the number. -/
theorem contains_around_iff (hm : 0 < m) (d : Decimal) :
    (Interval.around m q).contains d = true ↔ RoundsTo d.value m q := by
  have hden : (0 : ℚ) < (Interval.around m q).denominator := by
    exact_mod_cast Nat.two_pow_pos _
  have hfraction : (0 : ℚ) < d.fraction.2 := by
    exact_mod_cast Nat.pow_pos (by decide)
  have hle : ∀ n : Nat, (n : ℚ) / (Interval.around m q).denominator ≤ d.value ↔
      n * d.fraction.2 ≤ d.fraction.1 * (Interval.around m q).denominator := fun n => by
    rw [d.value_eq, div_le_div_iff₀ hden hfraction]
    exact_mod_cast Iff.rfl
  have hge : ∀ n : Nat, d.value ≤ (n : ℚ) / (Interval.around m q).denominator ↔
      d.fraction.1 * (Interval.around m q).denominator ≤ n * d.fraction.2 := fun n => by
    rw [d.value_eq, div_le_div_iff₀ hfraction hden]
    exact_mod_cast Iff.rfl
  have hlow := hle (Interval.around m q).low
  have hlow' := hge (Interval.around m q).low
  have hhigh := hge (Interval.around m q).high
  have hhigh' := hle (Interval.around m q).high
  rw [around_low hm] at hlow hlow'
  rw [around_high] at hhigh hhigh'
  have hclosed : (Interval.around m q).closed = decide (m % 2 = 0) := rfl
  rw [Interval.contains]
  dsimp only
  rw [hclosed]
  -- the ends of the interval belong to an even significand only
  by_cases heven : m % 2 = 0
  · simp only [heven, decide_true, if_true, Bool.and_eq_true, decide_eq_true_eq]
    rw [← hlow, ← hhigh]
    exact ⟨fun h => ⟨h.1, h.2, fun _ => heven⟩, fun h => ⟨h.low, h.high⟩⟩
  · simp only [heven, decide_false, Bool.false_eq_true, if_false, Bool.and_eq_true,
      decide_eq_true_eq]
    rw [← Nat.not_le, ← Nat.not_le, ← hlow', ← hhigh', not_le, not_le]
    refine ⟨fun h => ⟨h.1.le, h.2.le, ?_⟩, fun h => ⟨h.low.lt_of_ne ?_, h.high.lt_of_ne ?_⟩⟩
    · rintro (heq | heq)
      · exact absurd heq h.1.ne'
      · exact absurd heq h.2.ne
    · exact fun heq => heven (h.even (.inl heq.symm))
    · exact fun heq => heven (h.even (.inr heq))

/-! ### The place of the leading digit -/

/-- The zeros in front of the leading digit are all counted, if there are not too many. -/
theorem le_of_leadingZeros {n d k : Nat} (h : d ≤ n * 10 ^ k) :
    d ≤ n * 10 ^ (leadingZeros n d k + 1) := by
  induction k generalizing n with
  | zero => exact h.trans (Nat.mul_le_mul_left _ (Nat.pow_le_pow_right (by decide) (by omega)))
  | succ k ih =>
    rw [leadingZeros]
    split
    · rw [Nat.pow_succ', ← Nat.mul_assoc] at h
      rw [Nat.pow_succ', ← Nat.mul_assoc]
      exact ih h
    · omega

/-- The leading digit is not below its place. -/
theorem le_of_magnitude {n d : Nat} (hd : 0 < d) (h : d ≤ n * 10 ^ 330) :
    (10 : ℚ) ^ (magnitude n d - 1) ≤ n / d := by
  have hd' : (0 : ℚ) < d := by exact_mod_cast hd
  rw [le_div_iff₀ hd', magnitude]
  split
  · next hle =>
    have hpos : 0 < n / d := Nat.div_pos hle hd
    rw [digitCount, if_neg hpos.ne']
    obtain ⟨k, hk⟩ := Nat.exists_eq_add_one.mpr (Nat.length_toDigits_pos (b := 10) (n := n / d))
    have hpow : 10 ^ k ≤ n / d := by
      rcases Nat.eq_zero_or_pos k with rfl | hk'
      · exact hpos
      · have hlength := Nat.length_toDigits_le_iff (b := 10) (n := n / d) (by decide) hk'
        omega
    have hmul : 10 ^ k * d ≤ n := (Nat.le_div_iff_mul_le hd).mp hpow
    rw [hk]
    push_cast
    rw [add_sub_cancel_right, zpow_natCast]
    exact_mod_cast hmul
  · -- below one: as many places as there are zeros behind the point
    have hzeros := le_of_leadingZeros h
    obtain ⟨k, hk⟩ : ∃ k, k = leadingZeros n d 330 := ⟨_, rfl⟩
    rw [← hk] at hzeros ⊢
    have hexponent : -(k : Int) - 1 = -((k + 1 : Nat) : Int) := by omega
    rw [hexponent, zpow_neg, zpow_natCast, inv_mul_le_iff₀ (by positivity), mul_comm]
    exact_mod_cast hzeros

/-! ### The search -/

/-- The points of a grid next to a fraction are not further apart than the grid is wide. -/
theorem gridNeighbours_bounds {n d : Nat} (hd : 0 < d) (k : Int) :
    (gridNeighbours n d k).1.value ≤ n / d ∧ (n : ℚ) / d < (gridNeighbours n d k).2.value ∧
      (gridNeighbours n d k).2.value = (gridNeighbours n d k).1.value + 10 ^ k := by
  rw [gridNeighbours]
  simp only [Decimal.value, Nat.pow_eq]
  obtain ⟨a, ha⟩ : ∃ a, a = n * 10 ^ (-k).toNat := ⟨_, rfl⟩
  obtain ⟨b, hb⟩ : ∃ b, b = d * 10 ^ k.toNat := ⟨_, rfl⟩
  have hpos : 0 < b := by
    rw [hb]
    positivity
  -- the quotient measured in steps of the grid
  have hratio : (n : ℚ) / d = a / b * 10 ^ k := by
    rw [ha, hb, zpow_eq_div (by norm_num)]
    push_cast
    field_simp
  have hunit : (0 : ℚ) < 10 ^ k := by positivity
  have hpos' : (0 : ℚ) < b := by exact_mod_cast hpos
  have hle : ((a / b : Nat) : ℚ) ≤ a / b := by
    rw [le_div_iff₀ hpos']
    exact_mod_cast Nat.div_mul_le_self a b
  have hlt : (a : ℚ) / b < (a / b : Nat) + 1 := by
    rw [div_lt_iff₀ hpos']
    exact_mod_cast (Nat.div_lt_iff_lt_mul hpos).mp (Nat.lt_succ_self (a / b))
  rw [← ha, ← hb, hratio]
  push_cast
  exact ⟨by gcongr, by gcongr, by ring⟩

/-- A grid that is fine enough has a point in the interval of a number. -/
theorem exists_gridPoint? (hm : 0 < m) {k : Int} (h : 10 ^ k < (reach m q + 1 / 2) * 2 ^ q) :
    gridPoint? (.around m q) k ≠ none := by
  intro hnone
  have hd : 0 < (Interval.around m q).denominator := Nat.two_pow_pos _
  obtain ⟨hbelow, habove, hstep⟩ := gridNeighbours_bounds (n := (Interval.around m q).value) hd k
  rw [around_value] at hbelow habove
  have hunit : (0 : ℚ) < 2 ^ q := by positivity
  have hreach := reach_pos m q
  -- both points lie outside of the interval, on either side of it
  have houtside : ∀ d, (Interval.around m q).contains d = false →
      d.value ≤ (m - reach m q) * 2 ^ q ∨ (m + 1 / 2) * 2 ^ q ≤ d.value := fun d hd => by
    by_contra hinside
    rw [not_or, not_le, not_le] at hinside
    rw [(contains_around_iff hm d).mpr (.of_lt hinside.1 hinside.2)] at hd
    cases hd
  unfold gridPoint? at hnone
  dsimp only at hnone
  split at hnone <;> cases hnone
  next hfirst hsecond =>
    have hlow := houtside _ hfirst
    have hhigh := houtside _ hsecond
    have hreach := mul_pos hreach hunit
    rcases hlow with hlow | hlow <;> rcases hhigh with hhigh | hhigh <;> linarith

/-- The point of a grid that is taken is rounded to the number. -/
theorem roundsTo_of_gridPoint? (hm : 0 < m) {k : Int} {d : Decimal}
    (h : gridPoint? (.around m q) k = some d) : RoundsTo d.value m q := by
  rw [← contains_around_iff hm]
  unfold gridPoint? at h
  dsimp only at h
  split at h <;> cases h
  · split <;> assumption
  · assumption
  · assumption

theorem two_pow_le_ten_pow (k : Nat) : 2 ^ (33 * k) ≤ 10 ^ (10 * k) := by
  rw [Nat.pow_mul, Nat.pow_mul]
  exact Nat.pow_le_pow_left (by decide) k

/-- A number is not too small for the zeros behind the point to be counted. -/
theorem denominator_around_le (hm : 0 < m) {k : Nat} (hk : (2 - q).toNat ≤ 2 + 33 * k) :
    (Interval.around m q).denominator ≤ (Interval.around m q).value * 10 ^ (10 * k) := by
  have hvalue : 2 ^ 2 ≤ (Interval.around m q).value :=
    (Nat.le_mul_of_pos_right 4 hm).trans
      (Nat.le_mul_of_pos_right (4 * m) (Nat.two_pow_pos (q - 2).toNat))
  calc
    (Interval.around m q).denominator ≤ 2 ^ (2 + 33 * k) := Nat.pow_le_pow_right (by decide) hk
    _ = 2 ^ 2 * 2 ^ (33 * k) := Nat.pow_add 2 2 (33 * k)
    _ ≤ (Interval.around m q).value * 10 ^ (10 * k) :=
      Nat.mul_le_mul hvalue (two_pow_le_ten_pow k)

/-- Seventeen digits are enough. -/
theorem grid_of_seventeen (hc : Canonical m q) :
    (10 : ℚ) ^ (magnitude (Interval.around m q).value (Interval.around m q).denominator - 17) <
      (reach m q + 1 / 2) * 2 ^ q := by
  obtain ⟨i, hi⟩ : ∃ i, i = Interval.around m q := ⟨_, rfl⟩
  have hvalue := around_value m q
  rw [← hi] at hvalue ⊢
  have hd : 0 < i.denominator := hi ▸ Nat.two_pow_pos _
  have hlarge : i.denominator ≤ i.value * 10 ^ (10 * 33) :=
    hi ▸ denominator_around_le hc.pos (by have := hc.least; omega)
  simp only [Nat.reduceMul] at hlarge
  have hplace := le_of_magnitude hd hlarge
  rw [hvalue] at hplace
  have hpow : (10 : ℚ) ^ (magnitude i.value i.denominator - 17) =
      10 ^ (magnitude i.value i.denominator - 1) / 10 ^ 16 := by
    rw [← zpow_natCast, ← zpow_sub₀ (by norm_num)]
    congr 1
    omega
  have hunit : (0 : ℚ) < 2 ^ q := by positivity
  -- a significand has less than seventeen digits
  have hm : (m : ℚ) < (reach m q + 1 / 2) * 10 ^ 16 := by
    unfold reach
    split
    · next h =>
      rw [h.1]
      norm_num
    · have : (m : ℚ) < 2 ^ 53 := by exact_mod_cast hc.lt
      linarith
  rw [hpow, div_lt_iff₀ (by norm_num)]
  calc
    (10 : ℚ) ^ (magnitude i.value i.denominator - 1) ≤ m * 2 ^ q := hplace
    _ < (reach m q + 1 / 2) * 10 ^ 16 * 2 ^ q := by gcongr
    _ = (reach m q + 1 / 2) * 2 ^ q * 10 ^ 16 := by ring

/-- The decimal with the fewest digits is rounded to the number. -/
theorem roundsTo_shortest (hc : Canonical m q) : RoundsTo (shortest m q).value m q := by
  rw [shortest]
  split
  · next d hd =>
    obtain ⟨digits, -, hpoint⟩ := List.exists_of_findSome?_eq_some hd
    exact roundsTo_of_gridPoint? hc.pos hpoint
  · next hnone =>
    have hlast := List.findSome?_eq_none_iff.mp hnone 17 (by decide)
    exact absurd hlast (exists_gridPoint? hc.pos (grid_of_seventeen hc))

theorem value_stripped (d : Decimal) (fuel : Nat) : (d.stripped fuel).value = d.value := by
  induction fuel generalizing d with
  | zero => rfl
  | succ fuel ih =>
    rw [Decimal.stripped]
    split
    · next h =>
      have hdigits : (d.digits : ℚ) = (d.digits / 10 : Nat) * 10 := by
        exact_mod_cast (Nat.div_mul_cancel (Nat.dvd_of_mod_eq_zero h.1)).symm
      rw [ih, Decimal.value, Decimal.value, hdigits, zpow_add_one₀ (by norm_num)]
      ring
    · rfl

/-! ### Digits -/

theorem ofDigits_append (ds es : List Char) :
    ofDigits (ds ++ es) = es.foldl (fun n c => 10 * n + (c.toNat - '0'.toNat)) (ofDigits ds) :=
  List.foldl_append

theorem ofDigits_toDigits (n : Nat) : ofDigits (Nat.toDigits 10 n) = n :=
  Nat.ofDigitChars_ten_toDigits

theorem ofDigits_append_zeros (ds : List Char) (k : Nat) :
    ofDigits (ds ++ List.replicate k '0') = ofDigits ds * 10 ^ k := by
  induction k with
  | zero => simp
  | succ k ih =>
    rw [List.replicate_succ', ← List.append_assoc, ofDigits_append, ih, List.foldl_cons,
      List.foldl_nil, Nat.pow_succ]
    simp
    ring

theorem ofDigits_zeros_append (ds : List Char) (k : Nat) :
    ofDigits (List.replicate k '0' ++ ds) = ofDigits ds := by
  have hzeros := ofDigits_append_zeros [] k
  rw [List.nil_append] at hzeros
  rw [ofDigits_append, hzeros]
  simp [ofDigits]

/-! ### Reading digits -/

section Reading

variable {ds fs : List Char}

theorem takeDigits_of_all (hds : ∀ c ∈ ds, isDigit c = true) : takeDigits ds = (ds, []) := by
  have hnone := @takeDigits_append ds [] hds (by simp)
  rwa [List.append_nil] at hnone

theorem takeSign_signMark (s : Sign) {c : Char} (hc : isDigit c = true) (cs : List Char) :
    takeSign (signMark s ++ c :: cs) = (s == .negative, c :: cs) := by
  cases s with
  | negative => rfl
  | positive =>
    have hminus : c ≠ '-' := by
      rintro rfl
      exact absurd hc (by decide)
    have hplus : c ≠ '+' := by
      rintro rfl
      exact absurd hc (by decide)
    exact takeSign.eq_3 (c :: cs) (by simpa using hminus) (by simpa using hplus)

/-- A sign and digits are a literal. -/
theorem of?_digits (s : Sign) (hne : ds ≠ []) (hds : ∀ c ∈ ds, isDigit c = true) :
    Literal.of? (signMark s ++ ds) = some ⟨s == .negative, ofDigits ds, 0⟩ := by
  obtain ⟨c, cs, rfl⟩ := List.exists_cons_of_ne_nil hne
  rw [Literal.of?, takeSign_signMark s (hds c (by simp))]
  have hmantissa : takeMantissa (c :: cs) = some ((c :: cs, []), []) := by
    rw [takeMantissa, takeDigits_of_all hds]
  simp [hmantissa, exponentOf?]

/-- A sign, digits, the point and digits are a literal. -/
theorem of?_point (s : Sign) (hne : ds ≠ []) (hds : ∀ c ∈ ds, isDigit c = true)
    (hfs : ∀ c ∈ fs, isDigit c = true) :
    Literal.of? (signMark s ++ (ds ++ '.' :: fs)) =
      some ⟨s == .negative, ofDigits (ds ++ fs), -fs.length⟩ := by
  obtain ⟨c, cs, rfl⟩ := List.exists_cons_of_ne_nil hne
  rw [Literal.of?, List.cons_append, takeSign_signMark s (hds c (by simp))]
  have hmantissa : takeMantissa (c :: (cs ++ '.' :: fs)) = some ((c :: cs, fs), []) := by
    rw [takeMantissa, ← List.cons_append, takeDigits_point hds]
    simp only [takeDigits_of_all hfs]
  simp [hmantissa, exponentOf?]

end Reading

/-! ### Written numbers -/

/-- A decimal that is laid out is a literal of the same value. -/
theorem of?_positional (s : Sign) (d : Decimal) :
    ∃ l, Literal.of? (signMark s ++ d.positional) = some l ∧ l.negative = (s == .negative) ∧
      (l.mantissa : ℚ) * 10 ^ l.exponent = d.value := by
  have hne : Nat.toDigits 10 d.digits ≠ [] := Nat.toDigits_ne_nil
  have hdigits : ∀ c ∈ Nat.toDigits 10 d.digits, isDigit c = true := fun c hc =>
    Nat.isDigit_of_mem_toDigits (by decide) (by decide) hc
  have hzeros : ∀ k, ∀ c ∈ List.replicate k '0', isDigit c = true := fun k c hc => by
    rw [List.eq_of_mem_replicate hc]
    rfl
  obtain ⟨n, e⟩ := d
  rw [Decimal.positional, Decimal.value]
  dsimp only at hne hdigits ⊢
  split
  · next he =>
    obtain ⟨k, rfl⟩ : ∃ k : Nat, e = k := ⟨e.toNat, by omega⟩
    have hall := List.forall_mem_append.mpr ⟨hdigits, hzeros (k : Int).toNat⟩
    refine ⟨_, of?_digits s (List.append_ne_nil_of_left_ne_nil hne _) hall, rfl, ?_⟩
    rw [ofDigits_append_zeros, ofDigits_toDigits, zpow_zero, mul_one, zpow_natCast]
    exact_mod_cast rfl
  · next he =>
    obtain ⟨k, rfl⟩ : ∃ k : Nat, e = -k := ⟨(-e).toNat, by omega⟩
    rw [neg_neg, Int.toNat_natCast]
    split
    · next hlength =>
      obtain ⟨fs, hfs⟩ : ∃ fs, fs =
        List.replicate (k - (Nat.toDigits 10 n).length) '0' ++ Nat.toDigits 10 n := ⟨_, rfl⟩
      -- all digits stand behind the point, after some zeros
      have hall : ∀ c ∈ fs, isDigit c = true :=
        hfs ▸ List.forall_mem_append.mpr ⟨hzeros _, hdigits⟩
      have hplaces : fs.length = k := by
        rw [hfs, List.length_append, List.length_replicate]
        omega
      have hvalue : ofDigits (['0'] ++ fs) = n := by
        rw [hfs, ← List.replicate_one, ofDigits_zeros_append, ofDigits_zeros_append,
          ofDigits_toDigits]
      rw [List.cons_append, List.cons_append, ← hfs]
      refine ⟨_, of?_point s (List.cons_ne_nil '0' []) (hzeros 1) hall, rfl, ?_⟩
      rw [hvalue, hplaces]
    · next hlength =>
      obtain ⟨ds, hds⟩ : ∃ ds, ds = Nat.toDigits 10 n := ⟨_, rfl⟩
      rw [← hds] at hne hdigits hlength ⊢
      -- the point stands among the digits
      have htake : ds.take (ds.length - k) ≠ [] := by
        rw [← List.length_pos_iff, List.length_take]
        omega
      refine ⟨_, of?_point s htake (fun c hc => hdigits c (List.mem_of_mem_take hc))
        (fun c hc => hdigits c (List.mem_of_mem_drop hc)), rfl, ?_⟩
      rw [List.take_append_drop, hds, ofDigits_toDigits, ← hds, List.length_drop]
      have hplaces : ds.length - (ds.length - k) = k := by omega
      rw [hplaces]

/-- A literal whose value is rounded to a number is this number. -/
theorem Literal.value_eq {l : Literal} {s : Sign} (hc : Canonical m q)
    (hs : l.negative = (s == .negative)) (hr : RoundsTo (l.mantissa * 10 ^ l.exponent) m q) :
    l.value = .ofModel (.pack (.finite s m q hc.pos)) := by
  rw [Literal.value, ofScientific_eq hc hr, hs]
  cases s with
  | positive => rfl
  | negative =>
    show Float.ofModel (.pack (exact (.ofModel (.pack (.finite .positive m q hc.pos)))).neg) = _
    rw [exact_ofModel_pack hc]
    rfl

/-- The written form of a finite number is a literal of this number. -/
theorem readsBack {x : Float} (h : x.isFinite = true) : ReadsBack x := by
  have hpack := ofModel_pack_exact x
  have hfinite : (exact x).isFinite = true := h
  rw [ReadsBack, written]
  -- neither NaN nor an infinity is finite, and both zeros are computed
  rcases hx : exact x with s | - | s | ⟨s, m, q, hm⟩
  · rw [hx] at hfinite
    cases hfinite
  · rw [hx] at hfinite
    cases hfinite
  · rw [← hpack, hx]
    cases s <;> decide +kernel
  · have hc := canonical_of_exact hx
    obtain ⟨l, hl, hs, hvalue⟩ := of?_positional s ((shortest m q).stripped 20)
    have hr := roundsTo_shortest hc
    rw [← value_stripped _ 20, ← hvalue] at hr
    rw [← hpack, hx]
    dsimp only
    rw [parse?, hl, Option.map_some, Literal.value_eq hc hs hr]

end PocketLisp.Number
