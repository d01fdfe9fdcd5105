/-
PocketLisp/Proofs/Packing.lean

Numbers as bits, and their exact values.

The bits of a number are a sign, an exponent and a fraction.  What is unpacked from them is
canonical (`Canonical`): its mantissa has all 53 bits, except at the least exponent.

All of Mathlib is imported since no part of it has the lemmas of Batteries on floats.

Main results: a number is packed from its exact value (`ofModel_pack_exact`), and what is canonical
is unpacked as it was packed (`exact_ofModel_pack`).
-/
import Mathlib
import PocketLisp.Number.Exact

namespace PocketLisp.Number

open Float.Model Float.Model.UnpackedFloat

/-- A mantissa and an exponent as those of a finite number are: the mantissa has 53 bits, except
at the least exponent. -/
structure Canonical (m : Nat) (q : Int) : Prop where
  pos : 0 < m
  lt : m < 2 ^ 53
  least : -1074 ≤ q
  greatest : q ≤ 971
  normal : -1074 < q → 2 ^ 52 ≤ m

/-! ### The parts of a number -/

theorem mantissaBits_binary64 : Format.binary64.mantissaBits = 53 := rfl

theorem fractionBits_binary64 : Format.binary64.mantissaBitsWithoutImplicit = 52 := rfl

theorem exponentBias_binary64 : Format.binary64.exponentBias = 1023 := rfl

section Parts

variable (s : Sign) (e : BitVec 11) (f : BitVec 52)

/-- The bits of a number are a sign, an exponent and a fraction. -/
theorem exists_packComponents (b : BitVec 64) : ∃ s e f, packComponents .binary64 s e f = b :=
  ⟨_, _, _, @packComponents_unpackSign_unpackExponent_unpackMantissa .binary64 b⟩

theorem toNat_one_append : (1#1 ++ f).toNat = 2 ^ 52 + f.toNat := by
  rw [BitVec.toNat_append, ← Nat.shiftLeft_add_eq_or_of_lt f.isLt]
  rfl

variable {s e f}

theorem unpack_special (s : Sign) (f : BitVec 52) :
    UnpackedFloat.unpack .binary64 (packComponents .binary64 s (-1#11) f) =
      if f = 0#52 then .infinity s else .notANumber := by
  rw [UnpackedFloat.unpack]
  simp only [unpackMantissa_packComponents, unpackExponent_packComponents,
    unpackSign_packComponents, Sign.ofBitVec_toBitVec]
  rw [if_pos trivial]

theorem unpack_zero (s : Sign) :
    UnpackedFloat.unpack .binary64 (packComponents .binary64 s 0#11 0#52) = .zero s := by
  cases s <;> rfl

theorem unpack_normal (h : e ≠ -1#11) (hzero : e ≠ 0#11) (hpos : 0 < 2 ^ 52 + f.toNat) :
    UnpackedFloat.unpack .binary64 (packComponents .binary64 s e f) =
      .finite s (2 ^ 52 + f.toNat) (e.toNat - 1075) hpos := by
  rw [UnpackedFloat.unpack]
  simp only [unpackMantissa_packComponents, unpackExponent_packComponents,
    unpackSign_packComponents, Sign.ofBitVec_toBitVec, toNat_one_append]
  rw [if_neg h, if_neg hzero]
  rfl

theorem unpack_subnormal (hpos : 0 < f.toNat) :
    UnpackedFloat.unpack .binary64 (packComponents .binary64 s 0#11 f) =
      .finite s f.toNat (-1074) hpos := by
  have hf : f ≠ 0#52 := by
    rintro rfl
    exact absurd hpos (by decide)
  rw [UnpackedFloat.unpack]
  simp only [unpackMantissa_packComponents, unpackExponent_packComponents,
    unpackSign_packComponents, Sign.ofBitVec_toBitVec]
  rw [if_neg (by decide), if_pos trivial, dif_neg hf]
  rfl

theorem pack_normal (h : e ≠ -1#11) (hpos : 0 < 2 ^ 52 + f.toNat) :
    UnpackedFloat.pack .binary64 (.finite s (2 ^ 52 + f.toNat) (e.toNat - 1075) hpos) =
      packComponents .binary64 s e f := by
  -- the leading bit is the implicit one
  have hlog : (2 ^ 52 + f.toNat).log2 = 52 := by
    rw [Nat.log2_eq_iff hpos.ne']
    have := f.isLt
    omega
  have hbiased : ((e.toNat : Int) - 1075 + (Format.binary64.exponentBias : Nat) +
      (Format.binary64.mantissaBitsWithoutImplicit : Nat)).toNat = e.toNat := by
    rw [exponentBias_binary64, fractionBits_binary64]
    omega
  have hgreatest : ¬ 2 ^ Format.binary64.exponentBits ≤ e.toNat + 1 := by
    have hne : e.toNat ≠ 2047 := fun heq => h (BitVec.eq_of_toNat_eq heq)
    have := e.isLt
    have hbits : Format.binary64.exponentBits = 11 := rfl
    rw [hbits]
    omega
  rw [UnpackedFloat.pack]
  simp only [hbiased, hlog, mantissaBits_binary64]
  rw [if_neg hgreatest, if_pos trivial, BitVec.ofNat_toNat, BitVec.setWidth_eq]
  congr 1
  apply BitVec.eq_of_toNat_eq
  rw [BitVec.toNat_ofNat]
  have := f.isLt
  show (2 ^ 52 + f.toNat) % 2 ^ 52 = f.toNat
  omega

theorem pack_subnormal (hpos : 0 < f.toNat) :
    UnpackedFloat.pack .binary64 (.finite s f.toNat (-1074) hpos) =
      packComponents .binary64 s 0#11 f := by
  have hlog : f.toNat.log2 < 52 := (Nat.log2_lt hpos.ne').mpr f.isLt
  have hlog' : f.toNat.log2 + 1 ≠ Format.binary64.mantissaBits := by
    rw [mantissaBits_binary64]
    omega
  rw [UnpackedFloat.pack]
  simp only
  rw [if_neg (by decide), if_neg hlog', BitVec.ofNat_toNat, BitVec.setWidth_eq]

end Parts

/-! ### Numbers and their exact values -/

/-- A number is the one that its exact value is packed into. -/
theorem ofModel_pack_exact (x : Float) : .ofModel (.pack (exact x)) = x := by
  obtain ⟨⟨bits, hbits⟩⟩ := x
  have hpack := pack_unpack_of_valid hbits
  simp only [exact, Float.Model.unpack, Float.Model.pack, hpack]

variable {s : Sign} {m : Nat} {q : Int}

/-- What is unpacked is canonical, if it is finite and no zero. -/
theorem canonical_of_unpack {b : BitVec 64} {hpos : 0 < m}
    (h : UnpackedFloat.unpack .binary64 b = .finite s m q hpos) : Canonical m q := by
  obtain ⟨s, e, f, rfl⟩ := exists_packComponents b
  have hf : f.toNat < 2 ^ 52 := f.isLt
  have he : e.toNat < 2 ^ 11 := e.isLt
  -- the greatest exponent is no finite number, the least is subnormal
  by_cases hgreatest : e = -1#11
  · rw [hgreatest, unpack_special] at h
    split at h <;> cases h
  · by_cases hzero : e = 0#11
    · rw [hzero] at h
      rcases Nat.eq_zero_or_pos f.toNat with hnone | hsome
      · rw [BitVec.eq_of_toNat_eq hnone (y := 0#52), unpack_zero] at h
        cases h
      · rw [unpack_subnormal hsome] at h
        cases h
        exact ⟨hpos, by omega, by omega, by omega, by omega⟩
    · rw [unpack_normal hgreatest hzero (Nat.add_pos_left (Nat.two_pow_pos 52) _)] at h
      cases h
      have hzero : e.toNat ≠ 0 := fun h => hzero (BitVec.eq_of_toNat_eq h)
      have hgreatest : e.toNat ≠ 2047 := fun h => hgreatest (BitVec.eq_of_toNat_eq h)
      exact ⟨hpos, by omega, by omega, by omega, by omega⟩

theorem canonical_of_exact {x : Float} {hpos : 0 < m} (h : exact x = .finite s m q hpos) :
    Canonical m q :=
  canonical_of_unpack h

/-- A canonical mantissa and exponent are those of the number that they are packed into. -/
theorem exact_ofModel_pack (hc : Canonical m q) (s : Sign) :
    exact (.ofModel (.pack (.finite s m q hc.pos))) = .finite s m q hc.pos := by
  show UnpackedFloat.unpack .binary64 (UnpackedFloat.pack .binary64 (.finite s m q hc.pos)) = _
  obtain ⟨hpos, hlt, hleast, hgreatest, hnormal⟩ := hc
  by_cases hm : 2 ^ 52 ≤ m
  · -- the first of 53 bits is left out of the fraction
    obtain ⟨f, hf⟩ : ∃ f : BitVec 52, m = 2 ^ 52 + f.toNat :=
      ⟨.ofNat 52 (m - 2 ^ 52), by rw [BitVec.toNat_ofNat]; omega⟩
    obtain ⟨e, he⟩ : ∃ e : BitVec 11, q = e.toNat - 1075 :=
      ⟨.ofNat 11 (q + 1075).toNat, by rw [BitVec.toNat_ofNat]; omega⟩
    subst hf he
    have hspecial : e ≠ -1#11 := by
      rintro rfl
      exact absurd hgreatest (by decide)
    have hzero : e ≠ 0#11 := by
      rintro rfl
      exact absurd hleast (by decide)
    rw [pack_normal hspecial hpos, unpack_normal hspecial hzero hpos]
  · -- a mantissa of fewer bits has the least exponent, which is packed as zero
    obtain ⟨f, hf⟩ : ∃ f : BitVec 52, m = f.toNat :=
      ⟨.ofNat 52 m, by rw [BitVec.toNat_ofNat]; omega⟩
    obtain rfl : q = -1074 := by omega
    subst hf
    rw [pack_subnormal hpos, unpack_subnormal hpos]

end PocketLisp.Number
