/-
PocketLisp/Proofs/Indices.lean

Numbers as indices.

What a number stands for is a fraction (`rational?`), and an index is a number
that stands for a natural number: whether it is one is decided on its mantissa
and exponent, and indices from `maxIndex` on count as that one
(`index?_eq_some_iff`).  Natural numbers below `2 ^ 53` are numbers themselves
(`rational?_ofNat`).
-/
import PocketLisp.Proofs.Rounding

namespace PocketLisp.Number

open Float.Model.UnpackedFloat

variable {x : Float} {m n k : Nat} {e : Int}

/-- The fraction that a number stands for, if it is finite. -/
def rational? (x : Float) : Option ℚ :=
  match exact x with
  | .zero _ => some 0
  | .finite .positive m e _ => some (m * 2 ^ e)
  | .finite .negative m e _ => some (-(m * 2 ^ e))
  | _ => none

/-- When a mantissa and an exponent stand for a natural number, told in natural numbers. -/
theorem mul_two_zpow_eq_iff : (m : ℚ) * 2 ^ e = n ↔ m * 2 ^ e.toNat = n * 2 ^ (-e).toNat := by
  rw [zpow_eq_div (by norm_num), ← mul_div_assoc, div_eq_iff (by positivity)]
  exact_mod_cast Iff.rfl

/-- A mantissa and an exponent stand for a natural number if nothing is cut off. -/
theorem whole_iff :
    (0 ≤ e || m % 2 ^ (-e).toNat == 0) = true ↔ ∃ n : Nat, (m : ℚ) * 2 ^ e = n := by
  simp only [mul_two_zpow_eq_iff, Bool.or_eq_true, decide_eq_true_eq, beq_iff_eq]
  by_cases he : 0 ≤ e
  · refine ⟨fun _ => ⟨m * 2 ^ e.toNat, ?_⟩, fun _ => .inl he⟩
    rw [Int.toNat_of_nonpos (by omega : -e ≤ 0), pow_zero, mul_one]
  · rw [Int.toNat_of_nonpos (by omega : e ≤ 0), pow_zero, mul_one, ← Nat.dvd_iff_mod_eq_zero]
    simp only [he, false_or]
    exact exists_congr fun n => by rw [mul_comm]

/-- The natural number that they stand for. -/
theorem magnitude_eq (h : (m : ℚ) * 2 ^ e = n) :
    (if 0 ≤ e then m * 2 ^ e.toNat else m / 2 ^ (-e).toNat) = n := by
  rw [mul_two_zpow_eq_iff] at h
  split
  · rw [h, Int.toNat_of_nonpos (by omega : -e ≤ 0), pow_zero, mul_one]
  · rw [Int.toNat_of_nonpos (by omega : e ≤ 0), pow_zero, mul_one] at h
    rw [h, Nat.mul_div_cancel n (by positivity)]

/-- The indices are the numbers that stand for natural numbers. -/
theorem index?_eq_some_iff :
    index? x = some k ↔ ∃ n : Nat, rational? x = some (n : ℚ) ∧ k = min maxIndex n := by
  rw [index?, isWhole, rational?]
  cases exact x with
  | notANumber => simp
  | infinity s => simp
  | zero s =>
    simp only [Bool.not_true, Bool.false_eq_true, if_false, Option.some.injEq]
    refine ⟨fun h => ⟨0, Nat.cast_zero.symm, ?_⟩, fun ⟨n, hn, hk⟩ => ?_⟩
    · rw [← h, Nat.min_zero]
    · obtain rfl : n = 0 := Nat.cast_eq_zero.mp hn.symm
      rw [hk, Nat.min_zero]
  | finite s m e hm =>
    have hpos : (0 : ℚ) < m * 2 ^ e := by positivity
    have hwhole : (0 ≤ e || m % Nat.pow 2 (-e).toNat == 0) = true ↔
        ∃ n : Nat, (m : ℚ) * 2 ^ e = n := whole_iff
    cases s with
    | negative =>
      -- a number below zero is whole or not, but no index
      have hne : ∀ n : Nat, -(m * 2 ^ e) ≠ (n : ℚ) := fun n h => by
        have hn : (0 : ℚ) ≤ n := n.cast_nonneg
        linarith
      simp [hne]
    | positive =>
      simp only [Option.some.injEq]
      -- positive: whole and rounded down to itself, or no whole number
      by_cases h : ∃ n : Nat, (m : ℚ) * 2 ^ e = n
      · obtain ⟨n, hn⟩ := h
        have hmagnitude : (if 0 ≤ e then m * Nat.pow 2 e.toNat else m / Nat.pow 2 (-e).toNat) = n :=
          magnitude_eq hn
        rw [hwhole.mpr ⟨n, hn⟩, hmagnitude, hn]
        simp [eq_comm]
      · rw [Bool.eq_false_iff.mpr (mt hwhole.mp h)]
        have hne : ∀ n : Nat, (m : ℚ) * 2 ^ e ≠ n := fun n hn => h ⟨n, hn⟩
        simp [hne]

/-- Natural numbers below `2 ^ 53` are numbers. -/
theorem rational?_ofNat (h : n < 2 ^ 53) : rational? (Float.ofNat n) = some (n : ℚ) := by
  rcases Nat.eq_zero_or_pos n with rfl | hn
  · have hzero : exact (Float.ofNat 0) = .zero .positive := rfl
    rw [rational?, hzero, Nat.cast_zero]
  · obtain ⟨k, hc, -, hvalue⟩ := exists_canonical hn h
    have hround : RoundsTo (n * 10 ^ (0 : Int)) (n * 2 ^ k) (-k) := by
      rw [zpow_zero, mul_one, hvalue]
      exact .self _ _
    have hexact := exact_ofModel_pack hc .positive
    rw [← ofScientific_eq hc hround] at hexact
    have hofNat : exact (Float.ofNat n) = .finite .positive (n * 2 ^ k) (-k) hc.pos := hexact
    rw [rational?, hofNat, hvalue]

end PocketLisp.Number
