/-
PocketLisp/Proofs/Rounding.lean

Which number a positive fraction is rounded to.

The fractions that are rounded to `m · 2 ^ q` are those of an interval around it, of which the ends
belong to it when `m` is even (`RoundsTo`).  Products, quotients and decimal literals are computed
as a mantissa, an exponent and what is known of the part that is cut off; if these stand for a
fraction, and enough bits of it are there, they are rounded to the number in whose interval the
fraction lies (`roundWithAccuracy_eq`).

Main result: a decimal literal in the interval of a number is read as this number
(`ofScientific_eq`).
-/
import PocketLisp.Number.Literal
import PocketLisp.Proofs.Packing

namespace PocketLisp.Number

open Float.Model Float.Model.UnpackedFloat

/-! ### Powers -/

theorem two_pow_mul (k : Nat) (t : Int) : (2 : ℚ) ^ k * 2 ^ t = 2 ^ (k + t) := by
  rw [zpow_add₀ (by norm_num), zpow_natCast]

theorem two_zpow_le {s t : Int} (h : s ≤ t) : (2 : ℚ) ^ s ≤ 2 ^ t :=
  zpow_le_zpow_right₀ (by norm_num) h

theorem zpow_eq_div {b : ℚ} (hb : b ≠ 0) (q : Int) : b ^ q = b ^ q.toNat / b ^ (-q).toNat := by
  rw [← zpow_natCast, ← zpow_natCast, ← zpow_sub₀ hb]
  congr 1
  omega

/-! ### Cut off fractions -/

/-- A natural number that is nearest to a fraction; of two such numbers, the even one. -/
structure Nearest (n : Nat) (y : ℚ) : Prop where
  low : n - 1 / 2 ≤ y
  high : y ≤ n + 1 / 2
  even : y = n - 1 / 2 ∨ y = n + 1 / 2 → n % 2 = 0

theorem Nearest.le {n k : Nat} {y : ℚ} (hn : Nearest n y) (hk : Nearest k y) : n ≤ k := by
  by_contra hlt
  -- two nearest numbers are next to each other, and the fraction is half way: both are even
  have hcast : (k : ℚ) + 1 ≤ n := by exact_mod_cast Nat.lt_of_not_le hlt
  have hy : y = n - 1 / 2 := by linarith [hn.low, hk.high]
  have hy' : y = k + 1 / 2 := by linarith [hn.low, hk.high]
  have hsucc : n = k + 1 := by exact_mod_cast (by linarith : (n : ℚ) = k + 1)
  have := hn.even (.inl hy)
  have := hk.even (.inr hy')
  omega

theorem Nearest.unique {n k : Nat} {y : ℚ} (hn : Nearest n y) (hk : Nearest k y) : n = k :=
  Nat.le_antisymm (hn.le hk) (hk.le hn)

/-- What an accuracy tells of the part that was cut off. -/
def HasFraction : Accuracy → ℚ → Prop
  | .exact, f => f = 0
  | .inexact .lt, f => 0 < f ∧ f < 1 / 2
  | .inexact .eq, f => f = 1 / 2
  | .inexact .gt, f => 1 / 2 < f ∧ f < 1

theorem HasFraction.bounds {a : Accuracy} {f : ℚ} (h : HasFraction a f) : 0 ≤ f ∧ f < 1 := by
  rcases a with - | - | - | - <;> simp only [HasFraction] at h <;> constructor <;> linarith

theorem HasFraction.nearest {a : Accuracy} {m : Nat} {y : ℚ} (h : HasFraction a (y - m)) :
    Nearest (a.roundToNearestEven m) y := by
  rcases a with - | - | - | - <;> simp only [HasFraction] at h <;>
    simp only [Accuracy.roundToNearestEven]
  · exact ⟨by linarith, by linarith, by rintro (h | h) <;> linarith⟩
  · exact ⟨by linarith, by linarith, by rintro (h | h) <;> linarith⟩
  · rcases Nat.mod_two_eq_zero_or_one m with hm | hm <;> rw [hm]
    · exact ⟨by push_cast; linarith, by push_cast; linarith, by omega⟩
    · exact ⟨by push_cast; linarith, by push_cast; linarith, by omega⟩
  · refine ⟨by push_cast; linarith, by push_cast; linarith, fun h => ?_⟩
    push_cast at h
    rcases h with h | h <;> linarith

/-- What is known of a fraction after its mantissa has been shifted by one bit. -/
theorem hasFraction_shiftRightOne {em : ExtendedMantissa} {y : ℚ}
    (h : HasFraction em.accuracy (y - em.mantissa)) :
    HasFraction em.shiftRightOne.accuracy (y / 2 - em.shiftRightOne.mantissa) := by
  obtain ⟨m, roundBit, stickyBit⟩ := em
  -- the lowest bit of the mantissa becomes the round bit, which itself joins the sticky bit
  have hm : (m : ℚ) = 2 * (m / 2 : Nat) + (m % 2 : Nat) := by
    exact_mod_cast (Nat.div_add_mod m 2).symm
  rcases Nat.mod_two_eq_zero_or_one m with hbit | hbit <;> rw [hbit] at hm <;> push_cast at hm <;>
    rcases roundBit with - | - <;> rcases stickyBit with - | - <;>
    simp only [ExtendedMantissa.accuracy, HasFraction] at h <;>
    simp only [ExtendedMantissa.accuracy, HasFraction, ExtendedMantissa.shiftRightOne, hbit,
      Nat.reduceBNe, Bool.or_false, Bool.or_true] <;>
    first | linarith | constructor <;> linarith

theorem hasFraction_shiftRight {em : ExtendedMantissa} {y : ℚ}
    (h : HasFraction em.accuracy (y - em.mantissa)) (k : Nat) :
    HasFraction (em >>> k).accuracy (y / 2 ^ k - (em >>> k).mantissa) := by
  induction k with
  | zero => rwa [pow_zero, div_one]
  | succ k ih =>
    have hnext := hasFraction_shiftRightOne ih
    rwa [div_div, ← pow_succ] at hnext

theorem hasFraction_ofMantissaAndAccuracy {a : Accuracy} {m : Nat} {y : ℚ}
    (h : HasFraction a (y - m)) :
    HasFraction (ExtendedMantissa.ofMantissaAndAccuracy m a).accuracy
      (y - (ExtendedMantissa.ofMantissaAndAccuracy m a).mantissa) := by
  rcases a with - | - | - | - <;> exact h

/-! ### The interval of a number -/

/-- How far the fractions that are rounded to `m · 2 ^ q` go below it, in units of `2 ^ q`. -/
def reach (m : Nat) (q : Int) : ℚ := if m = 2 ^ 52 ∧ -1074 < q then 1 / 4 else 1 / 2

/-- The fractions that are rounded to `m · 2 ^ q`. -/
structure RoundsTo (r : ℚ) (m : Nat) (q : Int) : Prop where
  low : (m - reach m q) * 2 ^ q ≤ r
  high : r ≤ (m + 1 / 2) * 2 ^ q
  even : r = (m - reach m q) * 2 ^ q ∨ r = (m + 1 / 2) * 2 ^ q → m % 2 = 0

theorem reach_le (m : Nat) (q : Int) : reach m q ≤ 1 / 2 := by
  unfold reach
  split <;> norm_num

theorem reach_pos (m : Nat) (q : Int) : 0 < reach m q := by
  unfold reach
  split <;> norm_num

variable {m : Nat} {q : Int} {r : ℚ}

theorem RoundsTo.nearest (h : RoundsTo r m q) : Nearest m (r / 2 ^ q) := by
  have hunit : (0 : ℚ) < 2 ^ q := by positivity
  have hlow : (m - 1 / 2 : ℚ) ≤ m - reach m q := by linarith [reach_le m q]
  have hle := h.low
  refine ⟨?_, ?_, ?_⟩
  · rw [le_div_iff₀ hunit]
    exact (mul_le_mul_of_nonneg_right hlow hunit.le).trans h.low
  · rw [div_le_iff₀ hunit]
    exact h.high
  · rintro (heq | heq) <;> rw [div_eq_iff hunit.ne'] at heq
    · refine h.even (.inl (le_antisymm ?_ h.low))
      rw [heq]
      exact mul_le_mul_of_nonneg_right hlow hunit.le
    · exact h.even (.inr heq)

/-- A fraction in the interval of a number, and not at its ends, is rounded to the number. -/
theorem RoundsTo.of_lt (hlow : (m - reach m q) * 2 ^ q < r) (hhigh : r < (m + 1 / 2) * 2 ^ q) :
    RoundsTo r m q :=
  ⟨hlow.le, hhigh.le, by rintro (h | h) <;> linarith⟩

theorem RoundsTo.pos (h : RoundsTo r m q) (hm : 0 < m) : 0 < r := by
  have hcast : (1 : ℚ) ≤ m := by exact_mod_cast hm
  have hreach := reach_le m q
  exact lt_of_lt_of_le (mul_pos (by linarith) (by positivity)) h.low

/-- A fraction below the binade of the number that it is rounded to is just below it: the number is
a power of two. -/
theorem RoundsTo.eq_two_pow {t : Int} (h : RoundsTo r m q) (hc : Canonical m q) (hleast : -1074 ≤ t)
    (htq : t < q) (hlt : r < 2 ^ 53 * 2 ^ t) : t = q - 1 ∧ m = 2 ^ 52 := by
  have hunit : (0 : ℚ) < 2 ^ q := by positivity
  have hlow := h.low
  have hreach := mul_le_mul_of_nonneg_right (reach_le m q) hunit.le
  have hnormal := hc.normal (by omega)
  constructor
  · by_contra hne
    -- two exponents down even the greatest significand falls short
    have hm : (2 ^ 52 : ℚ) * 2 ^ q ≤ m * 2 ^ q := by
      gcongr
      exact_mod_cast hnormal
    have hpow : (2 : ℚ) ^ t ≤ 2 ^ (q - 2) := two_zpow_le (by omega)
    rw [zpow_sub₀ (by norm_num), zpow_ofNat] at hpow
    linarith
  · have hpow : (2 : ℚ) ^ t ≤ 2 ^ (q - 1) := two_zpow_le (by omega)
    rw [zpow_sub_one₀ (by norm_num)] at hpow
    have hbelow : (m - 1 / 2 : ℚ) * 2 ^ q < 2 ^ 52 * 2 ^ q := by linarith
    have hcast : (m : ℚ) < 2 ^ 52 + 1 := by linarith [lt_of_mul_lt_mul_right hbelow hunit.le]
    have hm : m < 2 ^ 52 + 1 := by exact_mod_cast hcast
    omega

/-- In the grid below its binade, a power of two is the first number that does not fit. -/
theorem RoundsTo.nearest_carry (h : RoundsTo r (2 ^ 52) q) (hq : -1074 < q)
    (hlt : r < 2 ^ 53 * 2 ^ (q - 1)) : Nearest (2 ^ 53) (r / 2 ^ (q - 1)) := by
  have hunit : (0 : ℚ) < 2 ^ q := by positivity
  have hlow := h.low
  have hreach : reach (2 ^ 52) q = 1 / 4 := if_pos ⟨rfl, hq⟩
  rw [hreach] at hlow
  rw [zpow_sub_one₀ (by norm_num)] at hlt ⊢
  refine ⟨?_, ?_, fun _ => by decide⟩
  · rw [le_div_iff₀ (by positivity)]
    push_cast at hlow ⊢
    linarith
  · rw [div_le_iff₀ (by positivity)]
    push_cast
    linarith

/-- A fraction above the binade of a number is not rounded to it. -/
theorem RoundsTo.not_above {t : Int} (h : RoundsTo r m q) (hc : Canonical m q) (hqt : q < t) :
    r < 2 ^ 52 * 2 ^ t := by
  have hpow : (2 : ℚ) ^ (q + 1) ≤ 2 ^ t := two_zpow_le (by omega)
  rw [zpow_add_one₀ (by norm_num)] at hpow
  have hm : ((m : ℚ) + 1) * 2 ^ q ≤ 2 ^ 53 * 2 ^ q := by
    gcongr
    exact_mod_cast hc.lt
  have hunit : (0 : ℚ) < 2 ^ q := by positivity
  linarith [h.high]

/-! ### Rounding -/

/-- The exponent that a mantissa is shifted to. -/
theorem targetExponent_eq (e : Int) :
    Format.binary64.targetExponent e = max (e - 53) (-1074) := by
  simp only [Format.targetExponent, Format.mantissaBits, Format.minExponent]
  omega

/-- A mantissa that fits is not shifted. -/
theorem shiftToTargetExponent_of_lt {n : Nat} {t : Int} (hn : n < 2 ^ 53) (ht : -1074 ≤ t) :
    shiftToTargetExponent .binary64 n t .exact = (⟨n, false, false⟩, t) := by
  have hlog : n.log2 ≤ 52 := by
    rcases Nat.eq_zero_or_pos n with rfl | hpos
    · decide
    · exact Nat.le_of_lt_succ ((Nat.log2_lt hpos.ne').mpr hn)
  have hshift : (Format.binary64.targetExponent (totalExponent n t) - t).toNat = 0 := by
    rw [targetExponent_eq, totalExponent]
    omega
  rw [shiftToTargetExponent, shiftToExponent, hshift, Int.natCast_zero, Int.add_zero]
  rfl

/-- A mantissa that has become too long by one bit is halved. -/
theorem shiftToTargetExponent_carry {t : Int} (ht : -1074 ≤ t) :
    shiftToTargetExponent .binary64 (2 ^ 53) t .exact = (⟨2 ^ 52, false, false⟩, t + 1) := by
  have hshift : (Format.binary64.targetExponent (totalExponent (2 ^ 53) t) - t).toNat = 1 := by
    rw [targetExponent_eq, totalExponent, Nat.log2_two_pow]
    omega
  rw [shiftToTargetExponent, shiftToExponent, hshift]
  rfl

/-- Whether enough bits are known to round a mantissa. -/
def Sufficient (n : Nat) (e : Int) : Prop := 52 ≤ n.log2 ∨ e ≤ -1074

/-- The binade of a fraction is that of the exponent that its mantissa is shifted to. -/
theorem HasFraction.binade {n : Nat} {e t : Int} {a : Accuracy} (ha : HasFraction a (r / 2 ^ e - n))
    (hsufficient : Sufficient n e) (ht : max (n.log2 + 1 + e - 53) (-1074) = t) :
    r < 2 ^ 53 * 2 ^ t ∧ (-1074 < t → 2 ^ 52 * 2 ^ t ≤ r) := by
  have hunit : (0 : ℚ) < 2 ^ e := by positivity
  have hbounds := ha.bounds
  rw [sub_nonneg, le_div_iff₀ hunit, sub_lt_iff_lt_add, div_lt_iff₀ hunit] at hbounds
  constructor
  · calc
      r < (1 + n) * 2 ^ e := hbounds.2
      _ ≤ 2 ^ (n.log2 + 1) * 2 ^ e := by
        gcongr
        exact_mod_cast (Nat.add_comm 1 n).trans_le Nat.lt_log2_self
      _ ≤ 2 ^ 53 * 2 ^ t := by
        rw [two_pow_mul, two_pow_mul]
        exact two_zpow_le (by omega)
  · intro hleast
    -- a quotient of zero has no bits, and is sufficient at the least exponent only
    have hn : n ≠ 0 := by
      rintro rfl
      rw [Sufficient, Nat.log2_zero] at hsufficient
      rw [Nat.log2_zero] at ht
      omega
    calc
      (2 : ℚ) ^ 52 * 2 ^ t ≤ 2 ^ n.log2 * 2 ^ e := by
        rw [two_pow_mul, two_pow_mul]
        exact two_zpow_le (by omega)
      _ ≤ n * 2 ^ e := by
        gcongr
        exact_mod_cast Nat.log2_self_le hn
      _ ≤ r := hbounds.1

/-- A fraction of which enough bits are known is rounded to the number around which it lies. -/
theorem roundWithAccuracy_eq {n : Nat} {e : Int} {a : Accuracy} (hsufficient : Sufficient n e)
    (ha : HasFraction a (r / 2 ^ e - n)) (hc : Canonical m q) (hr : RoundsTo r m q) (s : Sign) :
    roundWithAccuracy .binary64 s n e a = .finite s m q hc.pos := by
  obtain ⟨t, ht⟩ : ∃ t, max (n.log2 + 1 + e - 53) (-1074) = t := ⟨_, rfl⟩
  obtain ⟨hbelow, habove⟩ := ha.binade hsufficient ht
  rw [Sufficient] at hsufficient
  obtain ⟨k, hk⟩ : ∃ k : Nat, e + k = t := ⟨(t - e).toNat, by omega⟩
  have hshift : (t - e).toNat = k := by omega
  have hfirst := hasFraction_shiftRight (hasFraction_ofMantissaAndAccuracy ha) k
  rw [div_div, ← zpow_natCast, ← zpow_add₀ (by norm_num), hk] at hfirst
  rw [roundWithAccuracy, shiftToTargetExponent, shiftToExponent, targetExponent_eq, totalExponent,
    ht, hshift, hk]
  generalize ExtendedMantissa.ofMantissaAndAccuracy n a >>> k = em at hfirst ⊢
  have hrounded : Nearest em.roundedMantissa (r / 2 ^ t) := hfirst.nearest
  have hq := hc.least
  dsimp only
  -- the mantissa is rounded in the binade of the fraction, which need not be that of the number
  rcases lt_trichotomy t q with htq | rfl | hqt
  · obtain ⟨rfl, rfl⟩ := hr.eq_two_pow hc (by omega) htq hbelow
    -- the fraction is just below a power of two and is carried up to it
    have hcarry := hr.nearest_carry (by omega) hbelow
    rw [hrounded.unique hcarry, shiftToTargetExponent_carry (by omega),
      dif_neg (Nat.two_pow_pos 52).ne']
    simp only [Int.sub_add_cancel]
  · rw [hrounded.unique hr.nearest, shiftToTargetExponent_of_lt hc.lt hq, dif_neg hc.pos.ne']
  · exact absurd (hr.not_above hc hqt) (not_lt.mpr (habove (by omega)))

/-- What is known of a division with rest. -/
theorem hasFraction_accuracyOfFraction {n d : Nat} (h : n < d) :
    HasFraction (accuracyOfFraction n d) (n / d) := by
  have hd : (0 : ℚ) < d := by exact_mod_cast Nat.zero_lt_of_lt h
  have hlt : (n : ℚ) < d := by exact_mod_cast h
  rw [accuracyOfFraction]
  split
  · next hn => rw [hn]; simp [HasFraction]
  · next hn =>
    have hpos : (0 : ℚ) < n := by exact_mod_cast Nat.pos_of_ne_zero hn
    -- below, at or above the half
    rcases hcompare : compare (2 * n) d with - | - | - <;> simp only [HasFraction]
    · have : (2 * n : ℚ) < d := by exact_mod_cast Nat.compare_eq_lt.mp hcompare
      exact ⟨div_pos hpos hd, by rw [div_lt_div_iff₀ hd (by norm_num)]; linarith⟩
    · have : (2 * n : ℚ) = d := by exact_mod_cast Nat.compare_eq_eq.mp hcompare
      rw [div_eq_div_iff hd.ne' (by norm_num)]
      linarith
    · have : (d : ℚ) < 2 * n := by exact_mod_cast Nat.compare_eq_gt.mp hcompare
      exact ⟨by rw [div_lt_div_iff₀ (by norm_num) hd]; linarith, by rwa [div_lt_one hd]⟩

theorem log2_mul_two_pow {n : Nat} (hn : 0 < n) (k : Nat) :
    n.log2 + k ≤ (n * 2 ^ k).log2 := by
  rw [Nat.le_log2 (by positivity), Nat.pow_add]
  exact Nat.mul_le_mul_right _ (Nat.log2_self_le hn.ne')

theorem log2_div {n d j : Nat} (hn : 0 < n) (hd : 0 < d) (hj : j + d.log2 < n.log2) :
    j ≤ (n / d).log2 := by
  have hle : 2 ^ j ≤ n / d := by
    rw [Nat.le_div_iff_mul_le hd]
    calc
      2 ^ j * d ≤ 2 ^ j * 2 ^ (d.log2 + 1) := Nat.mul_le_mul_left _ Nat.lt_log2_self.le
      _ ≤ 2 ^ n.log2 := by
        rw [← Nat.pow_add]
        exact Nat.pow_le_pow_right (by decide) hj
      _ ≤ n := Nat.log2_self_le hn.ne'
  exact (Nat.le_log2 (Nat.pos_iff_ne_zero.mp ((Nat.two_pow_pos j).trans_le hle))).mpr hle

section Operations

variable {n₁ n₂ : Nat} {e₁ e₂ : Int} (h₁ : 0 < n₁) (h₂ : 0 < n₂) (hc : Canonical m q)

include h₁ h₂ in
theorem mul_eq (hsufficient : Sufficient (n₁ * n₂) (e₁ + e₂))
    (hr : RoundsTo (n₁ * 2 ^ e₁ * (n₂ * 2 ^ e₂)) m q) :
    UnpackedFloat.mul .binary64 (.finite .positive n₁ e₁ h₁) (.finite .positive n₂ e₂ h₂) =
      .finite .positive m q hc.pos := by
  refine roundWithAccuracy_eq hsufficient ?_ hc hr .positive
  rw [HasFraction, zpow_add₀ (by norm_num)]
  field_simp
  push_cast
  ring

omit h₂ in
include h₁ in
theorem round_eq (hr : RoundsTo (n₁ * 2 ^ e₁) m q) (s : Sign) :
    UnpackedFloat.round .binary64 s n₁ e₁ = .finite s m q hc.pos := by
  rw [UnpackedFloat.round, decreaseExponent, targetExponent_eq, totalExponent]
  obtain ⟨k, hk⟩ : ∃ k, k = (e₁ - max (n₁.log2 + 1 + e₁ - 53) (-1074)).toNat := ⟨_, rfl⟩
  rw [← hk, Nat.shiftLeft_eq]
  refine roundWithAccuracy_eq ?_ ?_ hc hr s
  · have hlog := log2_mul_two_pow h₁ k
    rw [Sufficient]
    omega
  · rw [HasFraction, zpow_sub₀ (by norm_num), zpow_natCast]
    field_simp
    push_cast
    ring

theorem div_eq (hr : RoundsTo (n₁ * 2 ^ e₁ / (n₂ * 2 ^ e₂)) m q) :
    UnpackedFloat.div .binary64 (.finite .positive n₁ e₁ h₁) (.finite .positive n₂ e₂ h₂) =
      .finite .positive m q hc.pos := by
  rw [UnpackedFloat.div, divCore]
  dsimp only
  generalize ht : min (e₁ - e₂)
    (Format.binary64.targetExponent (totalExponent n₁ e₁ - totalExponent n₂ e₂)) = t
  obtain ⟨k, hk⟩ : ∃ k : Nat, e₁ - e₂ - t = k := ⟨(e₁ - e₂ - t).toNat, by omega⟩
  rw [hk, Int.toNat_natCast, Nat.shiftLeft_eq]
  refine roundWithAccuracy_eq ?_ ?_ hc hr .positive
  · -- the dividend is shifted so far that the quotient has enough bits
    have hlog := log2_mul_two_pow h₁ k
    rw [targetExponent_eq, totalExponent, totalExponent] at ht
    by_cases hleast : t ≤ -1074
    · exact .inr hleast
    · exact .inl (log2_div (by positivity) h₂ (by omega))
  · have hd : (n₂ : ℚ) ≠ 0 := by exact_mod_cast h₂.ne'
    have hquotient : (n₁ * 2 ^ k / n₂ : Nat) * (n₂ : ℚ) + (n₁ * 2 ^ k % n₂ : Nat) = n₁ * 2 ^ k := by
      exact_mod_cast Nat.div_add_mod' (n₁ * 2 ^ k) n₂
    have hfraction : (n₁ * 2 ^ e₁ / (n₂ * 2 ^ e₂) / 2 ^ t - (n₁ * 2 ^ k / n₂ : Nat) : ℚ) =
        (n₁ * 2 ^ k % n₂ : Nat) / n₂ := by
      have hpow : (2 : ℚ) ^ e₁ = 2 ^ k * 2 ^ t * 2 ^ e₂ := by
        rw [two_pow_mul, ← zpow_add₀ (by norm_num), ← hk]
        congr 1
        omega
      rw [hpow]
      field_simp
      linarith
    rw [hfraction]
    exact hasFraction_accuracyOfFraction (Nat.mod_lt _ h₂)

end Operations

/-! ### Numbers that are exact -/

/-- A canonical number is what its own value is rounded to. -/
theorem RoundsTo.self (m : Nat) (q : Int) : RoundsTo (m * 2 ^ q) m q := by
  have hunit : (0 : ℚ) < 2 ^ q := by positivity
  have hreach := reach_pos m q
  have hlow : (m - reach m q) * 2 ^ q < m * 2 ^ q := by gcongr; linarith
  exact .of_lt hlow (by gcongr; linarith)

/-- A number stands for a positive fraction, exactly and with all of its bits. -/
def IsExactly (x : Float) (r : ℚ) : Prop :=
  ∃ m q, ∃ hm : 0 < m, exact x = .finite .positive m q hm ∧ r = m * 2 ^ q ∧ 2 ^ 52 ≤ m

/-- With its mantissa shifted up to 53 bits, a whole number below `2 ^ 53` is canonical. -/
theorem exists_canonical {n : Nat} (hn : 0 < n) (hlt : n < 2 ^ 53) :
    ∃ k : Nat, Canonical (n * 2 ^ k) (-k) ∧ 2 ^ 52 ≤ n * 2 ^ k ∧
      (n : ℚ) = (n * 2 ^ k : Nat) * 2 ^ (-k : Int) := by
  have hlog : n.log2 ≤ 52 := Nat.le_of_lt_succ ((Nat.log2_lt hn.ne').mpr hlt)
  have hlow := Nat.log2_self_le hn.ne'
  have hhigh : n < 2 ^ (n.log2 + 1) := Nat.lt_log2_self
  obtain ⟨k, hk⟩ : ∃ k, n.log2 + k = 52 := ⟨52 - n.log2, by omega⟩
  have hge : 2 ^ 52 ≤ n * 2 ^ k := by
    rw [← hk, Nat.pow_add]
    exact Nat.mul_le_mul_right _ hlow
  have hlt' : n * 2 ^ k < 2 ^ 53 := by
    have h53 : 53 = n.log2 + 1 + k := by omega
    rw [h53, Nat.pow_add]
    exact Nat.mul_lt_mul_of_pos_right hhigh (Nat.two_pow_pos k)
  refine ⟨k, ⟨by positivity, hlt', by omega, by omega, fun _ => hge⟩, hge, ?_⟩
  push_cast
  rw [zpow_neg, zpow_natCast]
  field_simp

/-- Whole numbers below `2 ^ 53` are exact. -/
theorem isExactly_toFloat {n : Nat} (hn : 0 < n) (hlt : n < 2 ^ 53) :
    IsExactly n.toUInt64.toFloat n := by
  obtain ⟨k, hc, hge, hvalue⟩ := exists_canonical hn hlt
  refine ⟨n * 2 ^ k, -k, hc.pos, ?_, hvalue, hge⟩
  -- the whole number is its own rounding
  have hround : UnpackedFloat.ofNat .binary64 n = .finite .positive (n * 2 ^ k) (-k) hc.pos := by
    have hcompare : compare (n : Int) 0 = .gt := Int.compare_eq_gt.mpr (by omega)
    rw [UnpackedFloat.ofNat, UnpackedFloat.ofInt, UnpackedFloat.normalize, hcompare]
    refine round_eq hn hc ?_ .positive
    show RoundsTo (n * 2 ^ (0 : Int)) _ _
    rw [zpow_zero, mul_one, hvalue]
    exact .self _ _
  have htoNat : n.toUInt64.toNat = n := Nat.mod_eq_of_lt (by omega)
  rw [← exact_ofModel_pack hc .positive, ← hround]
  show exact (.ofModel (.pack (UnpackedFloat.ofNat .binary64 n.toUInt64.toNat))) = _
  rw [htoNat]

/-- Whether an entry of the table of powers of ten is exact. -/
def isExactPower (e : Nat) : Bool :=
  match Float.exactlyRepresentablePowersOfTen[e]?.map exact with
  | some (.finite .positive m q _) => 2 ^ 52 ≤ m && m * 2 ^ q.toNat == 10 ^ e * 2 ^ (-q).toNat
  | _ => false

theorem isExactPower_all : ∀ e ≤ 22, isExactPower e = true := by
  decide +kernel

/-- The entries of the table of powers of ten are exact. -/
theorem isExactly_power {e : Nat} (he : e < Float.exactlyRepresentablePowersOfTen.size) :
    IsExactly Float.exactlyRepresentablePowersOfTen[e] (10 ^ e) := by
  have hexact : isExactPower e = true := isExactPower_all e (Nat.le_of_lt_succ he)
  rw [isExactPower, Array.getElem?_eq_getElem he, Option.map_some] at hexact
  generalize Float.exactlyRepresentablePowersOfTen[e] = x at hexact ⊢
  split at hexact
  · next m q hm heq =>
    rw [Bool.and_eq_true, decide_eq_true_eq, beq_iff_eq] at hexact
    have hvalue : (m : ℚ) * 2 ^ q.toNat = 10 ^ e * 2 ^ (-q).toNat := by exact_mod_cast hexact.2
    refine ⟨m, q, hm, Option.some.inj heq, ?_, hexact.1⟩
    rw [zpow_eq_div (by norm_num)]
    field_simp
    linarith
  · cases hexact

/-- The product of two numbers of which all bits are known. -/
theorem IsExactly.mul_eq {x y : Float} {v w : ℚ} (hx : IsExactly x v) (hy : IsExactly y w)
    (hc : Canonical m q) (hr : RoundsTo (v * w) m q) :
    x * y = .ofModel (.pack (.finite .positive m q hc.pos)) := by
  obtain ⟨n₁, e₁, h₁, hexact₁, rfl, hbits⟩ := hx
  obtain ⟨n₂, e₂, h₂, hexact₂, rfl, -⟩ := hy
  show Float.ofModel (.pack (UnpackedFloat.mul .binary64 (exact x) (exact y))) = _
  rw [hexact₁, hexact₂, Number.mul_eq h₁ h₂ hc ?_ hr]
  refine .inl ((Nat.le_log2 (by positivity)).mpr (hbits.trans ?_))
  exact Nat.le_mul_of_pos_right n₁ h₂

theorem IsExactly.div_eq {x y : Float} {v w : ℚ} (hx : IsExactly x v) (hy : IsExactly y w)
    (hc : Canonical m q) (hr : RoundsTo (v / w) m q) :
    x / y = .ofModel (.pack (.finite .positive m q hc.pos)) := by
  obtain ⟨n₁, e₁, h₁, hexact₁, rfl, -⟩ := hx
  obtain ⟨n₂, e₂, h₂, hexact₂, rfl, -⟩ := hy
  show Float.ofModel (.pack (UnpackedFloat.div .binary64 (exact x) (exact y))) = _
  rw [hexact₁, hexact₂, Number.div_eq h₁ h₂ hc hr]

/-! ### Decimal literals -/

theorem RoundsTo.bounds (h : RoundsTo r m q) (hc : Canonical m q) :
    (2 : ℚ) ^ (-1075 : Int) ≤ r ∧ r ≤ 2 ^ (1024 : Int) := by
  have hunit : (0 : ℚ) < 2 ^ q := by positivity
  have hleast : (1 : ℚ) ≤ m := by exact_mod_cast hc.pos
  have hgreatest : (m : ℚ) + 1 ≤ 2 ^ 53 := by exact_mod_cast hc.lt
  have hreach := reach_le m q
  constructor
  · calc
      (2 : ℚ) ^ (-1075 : Int) = 1 / 2 * 2 ^ (-1074 : Int) := by
        rw [one_div, ← zpow_neg_one, ← zpow_add₀ (by norm_num)]
        rfl
      -- the least number is the first of the subnormal ones
      _ ≤ (m - reach m q) * 2 ^ q :=
        mul_le_mul (by linarith) (two_zpow_le hc.least) (by positivity) (by linarith)
      _ ≤ r := h.low
  · calc
      r ≤ (m + 1 / 2) * 2 ^ q := h.high
      _ ≤ 2 ^ 53 * 2 ^ (971 : Int) :=
        mul_le_mul (by linarith) (two_zpow_le hc.greatest) hunit.le (by positivity)
      _ = 2 ^ (1024 : Int) := two_pow_mul 53 971

/-- The exponent of a decimal that is rounded to a number is neither too large nor too small. -/
theorem RoundsTo.exponent_bounds {n : Nat} {e : Int} (hn : 0 < n) (hc : Canonical m q)
    (hr : RoundsTo (n * 10 ^ e) m q) : -(2048 + n.log2 : Int) ≤ e ∧ e ≤ 2048 := by
  obtain ⟨hleast, hgreatest⟩ := hr.bounds hc
  constructor
  · by_contra hlt
    have hpow : (10 : ℚ) ^ e ≤ 2 ^ e := by
      obtain ⟨k, rfl⟩ : ∃ k : Nat, e = -k := ⟨(-e).toNat, by omega⟩
      rw [zpow_neg, zpow_neg, zpow_natCast, zpow_natCast]
      gcongr
      norm_num
    have hlog : (n : ℚ) ≤ 2 ^ (n.log2 + 1) := by exact_mod_cast Nat.lt_log2_self.le
    -- below the least number that rounds to none but zero
    have hsmall : (n : ℚ) * 10 ^ e ≤ 2 ^ (-1076 : Int) := calc
      (n : ℚ) * 10 ^ e ≤ 2 ^ (n.log2 + 1) * 2 ^ e := by gcongr
      _ ≤ 2 ^ (-1076 : Int) := by
        rw [two_pow_mul]
        exact two_zpow_le (by push_cast; omega)
    exact absurd (hleast.trans hsmall)
      (not_le.mpr (zpow_lt_zpow_right₀ (by norm_num) (by decide)))
  · by_contra hlt
    have hn' : (1 : ℚ) ≤ n := by exact_mod_cast hn
    have hpow : (2 : ℚ) ^ (1025 : Int) ≤ 10 ^ e := calc
      (2 : ℚ) ^ (1025 : Int) ≤ 2 ^ e := two_zpow_le (by omega)
      _ ≤ 10 ^ e := zpow_le_zpow_left₀ (by omega) (by norm_num) (by norm_num)
    -- above the greatest number that is not rounded to an infinity
    have hlarge : (10 : ℚ) ^ e ≤ n * 10 ^ e := le_mul_of_one_le_left (by positivity) hn'
    exact absurd (hpow.trans (hlarge.trans hgreatest))
      (not_le.mpr (zpow_lt_zpow_right₀ (by norm_num) (by decide)))

theorem unpacked_ofScientific {n : Nat} {e : Int} (hn : 0 < n) (hc : Canonical m q)
    (hr : RoundsTo (n * 10 ^ e) m q) :
    UnpackedFloat.ofScientific .binary64 n e = .finite .positive m q hc.pos := by
  obtain ⟨hleast, hgreatest⟩ := hr.exponent_bounds hn hc
  have hbits : (2 : Int) ^ Format.binary64.exponentBits = 2048 := rfl
  rw [UnpackedFloat.ofScientific, dif_neg hn.ne', hbits, if_neg (by omega), if_neg (by omega)]
  split
  · next he =>
    obtain ⟨k, rfl⟩ : ∃ k : Nat, e = k := ⟨e.toNat, by omega⟩
    refine mul_eq _ _ hc ?_ ?_
    · -- the mantissa is shifted before it is multiplied: there are enough bits
      rw [Nat.shiftLeft_eq, mantissaBits_binary64, mul_right_comm]
      have hpos : 0 < n * 10 ^ (k : Int).toNat := by positivity
      have hlog := log2_mul_two_pow hpos 53
      exact .inl (by omega)
    · have hvalue : (n * 10 ^ (k : Int) : ℚ) = (n * 2 ^ 53 : Nat) * 2 ^ (-(53 : Nat) : Int) *
          ((10 ^ k : Nat) * 2 ^ (0 : Int)) := by
        rw [zpow_neg, zpow_natCast, zpow_natCast, zpow_zero]
        push_cast
        field_simp
        norm_num
      rwa [Nat.shiftLeft_eq, mantissaBits_binary64, Int.toNat_natCast, ← hvalue]
  · next he =>
    obtain ⟨k, hk⟩ : ∃ k : Nat, e = -k := ⟨(-e).toNat, by omega⟩
    refine div_eq _ _ hc ?_
    rw [hk, neg_neg, Int.toNat_natCast]
    rw [hk, zpow_neg, zpow_natCast, ← div_eq_mul_inv] at hr
    simpa using hr

theorem signed_natAbs (e : Int) :
    (if decide (e < 0) = true then Int.negOfNat e.natAbs else Int.ofNat e.natAbs) = e := by
  split
  · next hneg =>
    rw [decide_eq_true_eq] at hneg
    rw [Int.negOfNat_eq]
    exact (congrArg Neg.neg (Int.ofNat_natAbs_of_nonpos hneg.le)).trans (Int.neg_neg e)
  · next hneg =>
    rw [decide_eq_true_eq] at hneg
    exact Int.natAbs_of_nonneg (Int.not_lt.mp hneg)

/-- The number that is nearest to a decimal is the one around which the decimal lies. -/
theorem ofScientific_eq {n : Nat} {e : Int} (hc : Canonical m q)
    (hr : RoundsTo (n * 10 ^ e) m q) :
    Float.ofScientific n (e < 0) e.natAbs = .ofModel (.pack (.finite .positive m q hc.pos)) := by
  have hn : 0 < n := by
    rcases Nat.eq_zero_or_pos n with rfl | hn
    · have hpos := hr.pos hc.pos
      rw [Nat.cast_zero, zero_mul] at hpos
      exact absurd hpos (lt_irrefl 0)
    · exact hn
  rw [Float.ofScientific]
  split
  · next h =>
    -- a short literal is one operation on two exact numbers, which rounds once
    have hn' := isExactly_toFloat hn h.1
    have he := isExactly_power (e := e.natAbs) (Nat.lt_succ_of_le h.2)
    by_cases hneg : e < 0
    · rw [decide_eq_true hneg]
      refine hn'.div_eq he hc ?_
      obtain ⟨k, rfl⟩ : ∃ k : Nat, e = -k := ⟨(-e).toNat, by omega⟩
      rw [Int.natAbs_neg, Int.natAbs_natCast]
      rwa [zpow_neg, zpow_natCast, ← div_eq_mul_inv] at hr
    · rw [decide_eq_false hneg]
      refine hn'.mul_eq he hc ?_
      obtain ⟨k, rfl⟩ := Int.eq_ofNat_of_zero_le (Int.not_lt.mp hneg)
      rwa [zpow_natCast] at hr
  · rw [signed_natAbs]
    exact congrArg (fun f => Float.ofModel (.pack f)) (unpacked_ofScientific hn hc hr)

end PocketLisp.Number
