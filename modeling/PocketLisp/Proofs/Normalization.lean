/-
PocketLisp/Proofs/Normalization.lean

Normalization form C does not change its own results.

Two texts are canonically equivalent if they have the same characters after
full decomposition and ordering.  Composition keeps the equivalence class of a
text that is decomposed and in order: a character is put into a starter only
across marks of other classes, and these may change places with it
(`insertMark_comm`).  What the tables have to provide for that is checked once
for all their entries (`unfinished_four`, `mappings_sound`).

Main results: `orderMarks_decompose_normalForm` and, as normalization is a
function of the equivalence class, `normalForm_normalForm`.
-/
import Mathlib.Data.List.Chain
import Mathlib.Data.List.Nodup
import PocketLisp.Text.Normal

namespace PocketLisp.Text

open Decomposition

/-! ### The tables -/

/-- All canonical mappings, one step each. -/
def mappings : List (Nat × List Nat) :=
  composites.map (fun r => (r.1, [r.2.1, r.2.2])) ++
    splittings.map (fun r => (r.1, [r.2.1, r.2.2])) ++
      aliases.flatMap fun r => (r.2.zipIdx r.1).map fun t => (t.2, [t.1])

theorem mem_of_find? {table : List (Nat × Nat × Nat)} {n k a b : Nat}
    (h : table.find? (fun r => r.1 == n) = some (k, a, b)) : (n, a, b) ∈ table := by
  obtain rfl : k = n := by simpa using List.find?_some h
  exact List.mem_of_find?_eq_some h

theorem mem_mappings {n : Nat} {parts : List Nat} (h : decomposeStep n = some parts) :
    (n, parts) ∈ mappings := by
  rw [mappings, List.mem_append, List.mem_append, List.mem_map, List.mem_map, List.mem_flatMap]
  -- the three tables in the order in which a step tries them
  unfold decomposeStep at h
  split at h
  · next hfind =>
    cases h
    exact .inl (.inl ⟨_, mem_of_find? hfind, rfl⟩)
  · split at h
    · next hfind =>
      cases h
      exact .inl (.inr ⟨_, mem_of_find? hfind, rfl⟩)
    · split at h
      · next first targets hfind =>
        obtain ⟨t, ht, rfl⟩ := Option.map_eq_some_iff.mp h
        have hle : first ≤ n := by
          have hrange := List.find?_some hfind
          simp only [Bool.and_eq_true, decide_eq_true_eq] at hrange
          exact hrange.1
        refine .inr ⟨_, List.mem_of_find?_eq_some hfind, List.mem_map.mpr ⟨(t, n), ?_, rfl⟩⟩
        exact List.mem_zipIdx_iff_le_and_getElem?_sub.mpr ⟨hle, ht⟩
      · cases h

/-- A set of numbers, as the bits of one number. -/
def bitmap (ns : List Nat) : Nat := ns.foldr (fun n bits => 1 <<< n ||| bits) 0

theorem testBit_bitmap (ns : List Nat) (n : Nat) : (bitmap ns).testBit n = decide (n ∈ ns) := by
  induction ns with
  | nil => exact Nat.zero_testBit n
  | cons m ns ih =>
    have hbit : (1 <<< m).testBit n = decide (n = m) := by
      rw [Nat.one_shiftLeft, Nat.testBit_two_pow, decide_eq_decide]
      exact eq_comm
    rw [bitmap, List.foldr_cons, Nat.testBit_or, hbit]
    rw [bitmap] at ih
    simp only [ih, List.mem_cons, Bool.decide_or]

/-- The numbers for which so many steps of decomposition are not enough. -/
def unfinished : Nat → List Nat
  | 0 => mappings.map Prod.fst
  | d + 1 =>
    let bits := bitmap (unfinished d)
    (mappings.filter fun m => m.2.any fun p => bits.testBit p).map Prod.fst

theorem unfinished_four : unfinished 4 = [] := by decide +kernel

/-- Characters below `0xC0` and the parts of syllables are not decomposed by a table; syllables are
in no table, and all entries are characters. -/
theorem mappings_sound : ∀ m ∈ mappings,
    (0xC0 ≤ m.1 ∧ (m.1 < 0x1100 ∨ 0x1200 ≤ m.1)) ∧
      ∀ p ∈ m.1 :: m.2, p.isValidChar ∧ (p < 0xAC00 ∨ 0xD7A4 ≤ p) := by
  decide +kernel

/-- No character is composed in two ways. -/
theorem composites_increasing : (composites.map Prod.fst).IsChain (· < ·) := by decide +kernel

theorem decomposeStep_of_lt {n : Nat} (h : n < 0xC0) : decomposeStep n = none := by
  rcases hstep : decomposeStep n with - | parts
  · rfl
  · have hsound := (mappings_sound _ (mem_mappings hstep)).1
    omega

theorem decomposeStep_of_hangulPart {n : Nat} (hlow : 0x1100 ≤ n) (hhigh : n < 0x1200) :
    decomposeStep n = none := by
  rcases hstep : decomposeStep n with - | parts
  · rfl
  · have hsound := (mappings_sound _ (mem_mappings hstep)).1
    omega

theorem decomposeStep_composite {n a b : Nat} (h : (n, a, b) ∈ composites) :
    decomposeStep n = some [a, b] := by
  have hfind : composites.find? (fun r => r.1 == n) = some (n, a, b) := by
    have hkeys : (composites.map Prod.fst).Nodup :=
      (List.isChain_iff_pairwise.mp composites_increasing).imp Nat.ne_of_lt
    rcases hfind : composites.find? (fun r => r.1 == n) with - | r
    · exact absurd (List.find?_eq_none.mp hfind _ h) (by simp)
    · have hr : r.1 = n := by simpa using List.find?_some hfind
      rw [hfind, List.inj_on_of_nodup_map hkeys (List.mem_of_find?_eq_some hfind) h hr]
  rw [decomposeStep, hfind]

/-! ### Full decomposition -/

theorem not_mem_unfinished {d n : Nat} {parts : List Nat} (h : n ∉ unfinished (d + 1))
    (hstep : decomposeStep n = some parts) : ∀ p ∈ parts, p ∉ unfinished d := by
  intro p hp hmem
  refine h (List.mem_map.mpr ⟨_, List.mem_filter.mpr ⟨mem_mappings hstep, ?_⟩, rfl⟩)
  refine List.any_eq_true.mpr ⟨p, hp, ?_⟩
  rw [testBit_bitmap]
  exact decide_eq_true hmem

/-- What is left after enough steps cannot be decomposed. -/
theorem decomposeStep_of_mem {d n : Nat} (h : n ∉ unfinished d) :
    ∀ x ∈ decomposeWithin d n, decomposeStep x = none := by
  induction d generalizing n with
  | zero =>
    intro x hx
    -- a character still decomposable when the allowance ends would be unfinished
    obtain rfl : x = n := by simpa [decomposeWithin] using hx
    rcases hstep : decomposeStep x with - | parts
    · rfl
    · exact absurd (List.mem_map.mpr ⟨_, mem_mappings hstep, rfl⟩) h
  | succ d ih =>
    intro x hx
    rw [decomposeWithin] at hx
    split at hx
    · next parts hstep =>
      obtain ⟨p, hp, hx⟩ := List.mem_flatMap.mp hx
      exact ih (not_mem_unfinished h hstep p hp) x hx
    · next hstep =>
      obtain rfl : x = n := by simpa using hx
      exact hstep

/-- More steps than enough make no difference. -/
theorem decomposeWithin_succ {d n : Nat} (h : n ∉ unfinished d) :
    decomposeWithin (d + 1) n = decomposeWithin d n := by
  induction d generalizing n with
  | zero =>
    have hnone : decomposeStep n = none := by
      refine decomposeStep_of_mem h n ?_
      rw [decomposeWithin]
      exact List.mem_singleton.mpr rfl
    simp only [decomposeWithin, hnone]
  | succ d ih =>
    -- a part of a finished character is finished, with one step less
    rw [decomposeWithin, decomposeWithin]
    split
    · next parts hstep =>
      exact List.flatMap_congr fun p hp => ih (not_mem_unfinished h hstep p hp)
    · rfl

theorem finished (n : Nat) : n ∉ unfinished 4 := by
  rw [unfinished_four]
  exact List.not_mem_nil

/-- What decomposition makes of a number is the number, or a part in the tables. -/
theorem sound_of_mem_decomposeWithin {d n x : Nat} (h : x ∈ decomposeWithin d n) :
    x = n ∨ x.isValidChar ∧ (x < 0xAC00 ∨ 0xD7A4 ≤ x) := by
  induction d generalizing n with
  | zero => exact .inl (by simpa [decomposeWithin] using h)
  | succ d ih =>
    rw [decomposeWithin] at h
    split at h
    · next parts hstep =>
      obtain ⟨p, hp, hx⟩ := List.mem_flatMap.mp h
      rcases ih hx with rfl | hsound
      · exact .inr ((mappings_sound _ (mem_mappings hstep)).2 _ (List.mem_cons_of_mem _ hp))
      · exact .inr hsound
    · exact .inl (by simpa using h)

/-! ### Characters that cannot be decomposed -/

/-- A character is its own decomposition. -/
def Atomic (c : Char) : Prop := decomposeChar c = [c]

/-- Hangul apart, the decomposition is that of the tables. -/
theorem decomposeChar_eq {c : Char} (h : c.toNat < 0xAC00 ∨ 0xD7A4 ≤ c.toNat) :
    decomposeChar c = (decomposeWithin 4 c.toNat).map Char.ofNat := by
  rw [decomposeChar]
  split
  · next hlt =>
    rw [decomposeWithin, decomposeStep_of_lt hlt, List.map_singleton, Char.ofNat_toNat]
  · rw [if_neg (by omega)]

theorem toNat_ofNat {n : Nat} (h : n.isValidChar) : (Char.ofNat n).toNat = n := by
  rw [Char.ofNat, dif_pos h]
  exact UInt32.toNat_ofNatLT ..

theorem atomic_ofNat {n : Nat} (hstep : decomposeStep n = none) (hvalid : n.isValidChar)
    (hsyllable : n < 0xAC00 ∨ 0xD7A4 ≤ n) : Atomic (Char.ofNat n) := by
  have hn := toNat_ofNat hvalid
  rw [Atomic, decomposeChar_eq (by rw [hn]; exact hsyllable), hn, decomposeWithin, hstep]
  rfl

theorem atomic_hangulPart {n : Nat} (hlow : 0x1100 ≤ n) (hhigh : n < 0x1200) :
    Atomic (Char.ofNat n) :=
  atomic_ofNat (decomposeStep_of_hangulPart hlow hhigh) (.inl (by omega)) (.inl (by omega))

/-- The parts of a syllable are consonants and vowels. -/
theorem of_mem_hangulParts {n x : Nat} (hlow : 0xAC00 ≤ n) (hhigh : n < 0xD7A4)
    (h : x ∈ hangulParts n) : 0x1100 ≤ x ∧ x < 0x1200 := by
  rw [hangulParts] at h
  split at h <;> simp only [List.mem_cons, List.not_mem_nil, or_false] at h <;> omega

/-- A character is decomposed into characters that cannot be decomposed. -/
theorem atomic_of_mem {c d : Char} (h : d ∈ decomposeChar c) : Atomic d := by
  by_cases hsyllable : 0xAC00 ≤ c.toNat ∧ c.toNat < 0xD7A4
  · rw [decomposeChar, if_neg (by omega), if_pos hsyllable] at h
    obtain ⟨x, hx, rfl⟩ := List.mem_map.mp h
    obtain ⟨hlow, hhigh⟩ := of_mem_hangulParts hsyllable.1 hsyllable.2 hx
    exact atomic_hangulPart hlow hhigh
  · rw [decomposeChar_eq (by omega)] at h
    obtain ⟨x, hx, rfl⟩ := List.mem_map.mp h
    have hstep := decomposeStep_of_mem (finished _) x hx
    rcases sound_of_mem_decomposeWithin hx with rfl | ⟨hvalid, hx'⟩
    · exact atomic_ofNat hstep c.valid (by omega)
    · exact atomic_ofNat hstep hvalid hx'

/-- A syllable has the parts that it is composed of: two, or one more than an open syllable has. -/
theorem hangulParts_of_compose {a b n : Nat} (h : hangulCompose a b = some n) :
    (0xAC00 ≤ n ∧ n < 0xD7A4) ∧
      ((0x1100 ≤ a ∧ a < 0x1200) ∧ hangulParts n = [a, b] ∨
        (0xAC00 ≤ a ∧ a < 0xD7A4) ∧ hangulParts n = hangulParts a ++ [b]) := by
  rw [hangulCompose] at h
  -- a leading consonant with a vowel, or an open syllable with a trailing consonant
  split_ifs at h with hopen hclosed
  · obtain rfl := Option.some.inj h
    refine ⟨by omega, .inl ⟨by omega, ?_⟩⟩
    rw [hangulParts, if_pos (by omega)]
    simp only [List.cons.injEq, and_true]
    omega
  · obtain rfl := Option.some.inj h
    refine ⟨by omega, .inr ⟨by omega, ?_⟩⟩
    rw [hangulParts, hangulParts, if_neg (by omega), if_pos hclosed.2.2.1]
    simp only [List.cons_append, List.nil_append, List.cons.injEq, and_true]
    omega

theorem decomposeChar_of_hangulCompose {a c : Char} {n : Nat}
    (h : hangulCompose a.toNat c.toNat = some n) :
    decomposeChar (Char.ofNat n) = decomposeChar a ++ [c] := by
  obtain ⟨⟨hlow, hhigh⟩, hparts⟩ := hangulParts_of_compose h
  have hn : (Char.ofNat n).toNat = n := toNat_ofNat (.inl (by omega))
  rw [decomposeChar, hn, if_neg (by omega), if_pos ⟨hlow, hhigh⟩]
  rcases hparts with ⟨⟨hlow', hhigh'⟩, hparts⟩ | ⟨ha, hparts⟩
  · have hatomic : Atomic (Char.ofNat a.toNat) := atomic_hangulPart hlow' hhigh'
    rw [Char.ofNat_toNat, Atomic] at hatomic
    rw [hparts, hatomic, List.map_cons, List.map_singleton, Char.ofNat_toNat, Char.ofNat_toNat]
    rfl
  · rw [decomposeChar, if_neg (by omega), if_pos ha, hparts, List.map_append, List.map_singleton,
      Char.ofNat_toNat]

/-- A character that is composed is decomposed into the parts that it is composed of. -/
theorem decomposeChar_of_composePair {starter c whole : Char}
    (h : composePair starter c = some whole) (hc : Atomic c) :
    decomposeChar whole = decomposeChar starter ++ [c] := by
  rw [composePair] at h
  split at h
  · next n hn =>
    obtain rfl := Option.some.inj h
    exact decomposeChar_of_hangulCompose hn
  · split at h
    · cases h
    · split at h
      · next n a b hfind =>
        obtain rfl := Option.some.inj h
        have hmem := List.mem_of_find?_eq_some hfind
        obtain ⟨rfl, rfl⟩ : a = starter.toNat ∧ b = c.toNat := by simpa using List.find?_some hfind
        -- not a syllable: the pair stands in the table, whose entry is undone in one step
        have hstep := decomposeStep_composite hmem
        have hsound := (mappings_sound _ (mem_mappings hstep)).2
        obtain ⟨hvalid, hn⟩ := hsound n List.mem_cons_self
        obtain ⟨-, hstarter⟩ := hsound starter.toNat (by simp)
        obtain ⟨-, hc'⟩ := hsound c.toNat (by simp)
        have hparts := not_mem_unfinished (finished n) hstep
        rw [Atomic, decomposeChar_eq hc'] at hc
        rw [decomposeChar_eq (by rwa [toNat_ofNat hvalid]), toNat_ofNat hvalid,
          decomposeChar_eq hstarter, ← hc, ← List.map_append, decomposeWithin, hstep]
        simp only [List.flatMap_cons, List.flatMap_nil, List.append_nil]
        rw [decomposeWithin_succ (hparts _ (by simp)), decomposeWithin_succ (hparts _ (by simp))]
      · cases h

/-! ### The order of marks -/

/-- Puts the characters of a text into a text that is given from its end. -/
def sortOnto (before cs : List Char) : List Char :=
  cs.foldl (fun before c => insertMark c before) before

theorem orderMarks_eq (cs : List Char) : orderMarks cs = (sortOnto [] cs).reverse := rfl

@[simp] theorem sortOnto_nil (before : List Char) : sortOnto before [] = before := rfl

@[simp] theorem sortOnto_cons (before : List Char) (c : Char) (cs : List Char) :
    sortOnto before (c :: cs) = sortOnto (insertMark c before) cs := rfl

theorem sortOnto_append (before cs ds : List Char) :
    sortOnto before (cs ++ ds) = sortOnto (sortOnto before cs) ds := List.foldl_append

theorem insertMark_past {c d : Char} (hc : combiningClass c ≠ 0)
    (h : combiningClass c < combiningClass d) (before : List Char) :
    insertMark c (d :: before) = d :: insertMark c before := if_pos ⟨hc, h⟩

theorem insertMark_here {c d : Char}
    (h : combiningClass c = 0 ∨ combiningClass d ≤ combiningClass c) (before : List Char) :
    insertMark c (d :: before) = c :: d :: before :=
  if_neg fun hpast => h.elim hpast.1 (Nat.not_le_of_lt hpast.2)

/-- Two marks of different classes may be inserted in either order. -/
theorem insertMark_comm {c d : Char} (hc : combiningClass c ≠ 0) (hd : combiningClass d ≠ 0)
    (hne : combiningClass c ≠ combiningClass d) (before : List Char) :
    insertMark c (insertMark d before) = insertMark d (insertMark c before) := by
  wlog h : combiningClass c < combiningClass d generalizing c d
  · exact (this hd hc hne.symm (Nat.lt_of_le_of_ne (Nat.le_of_not_lt h) hne.symm)).symm
  induction before with
  | nil => rw [insertMark, insertMark_past hc h, insertMark, insertMark_here (.inr h.le)]
  | cons e before ih =>
    by_cases he : combiningClass d < combiningClass e
    · rw [insertMark_past hd he, insertMark_past hc (h.trans he), insertMark_past hc (h.trans he),
        insertMark_past hd he, ih]
    · have hle := Nat.le_of_not_lt he
      rw [insertMark_here (.inr hle), insertMark_past hc h]
      -- `d` comes last, wherever `c` goes
      by_cases hce : combiningClass c < combiningClass e
      · rw [insertMark_past hc hce, insertMark_here (.inr hle)]
      · rw [insertMark_here (.inr (Nat.le_of_not_lt hce)), insertMark_here (.inr h.le)]

/-- A character may be put in front of marks of lower classes that it has been put behind. -/
theorem insertMark_sortOnto {c : Char} {marks : List Char} (before : List Char)
    (hmarks : ∀ m ∈ marks, combiningClass m ≠ 0 ∧ combiningClass m < combiningClass c) :
    insertMark c (sortOnto before marks) = sortOnto (insertMark c before) marks := by
  induction marks generalizing before with
  | nil => rfl
  | cons m marks ih =>
    obtain ⟨⟨hm, hlt⟩, hmarks⟩ := List.forall_mem_cons.mp hmarks
    rw [sortOnto_cons, sortOnto_cons, ih _ hmarks,
      insertMark_comm (Nat.ne_zero_of_lt hlt) hm (Nat.ne_of_gt hlt)]

/-- The class of the first character, or zero. -/
def firstClass : List Char → Nat
  | [] => 0
  | c :: _ => combiningClass c

/-- Behind a character of some class, the marks of a text are in order. -/
def Ordered : Nat → List Char → Prop
  | _, [] => True
  | k, c :: cs => (combiningClass c = 0 ∨ k ≤ combiningClass c) ∧ Ordered (combiningClass c) cs

theorem Ordered.mono {k k' : Nat} {cs : List Char} (h : Ordered k cs) (hle : k' ≤ k) :
    Ordered k' cs := by
  cases cs with
  | nil => trivial
  | cons c cs => exact ⟨h.1.imp_right hle.trans, h.2⟩

/-- Characters that are in order stay where they are. -/
theorem sortOnto_of_ordered {before cs : List Char} (h : Ordered (firstClass before) cs) :
    sortOnto before cs = cs.reverse ++ before := by
  induction cs generalizing before with
  | nil => rfl
  | cons c cs ih =>
    obtain ⟨hc, hcs⟩ := h
    have hinsert : insertMark c before = c :: before := by
      cases before with
      | nil => rfl
      | cons d before => exact insertMark_here hc before
    have hsorted : sortOnto (c :: before) cs = cs.reverse ++ c :: before := ih hcs
    rw [sortOnto_cons, hinsert, hsorted, List.reverse_cons, List.append_assoc]
    rfl

/-- A character may stand behind another one in a text that is in order. -/
def Follows (c d : Char) : Prop := combiningClass c = 0 ∨ combiningClass d ≤ combiningClass c

theorem head?_insertMark {c x : Char} {before : List Char}
    (h : x ∈ (insertMark c before).head?) : x = c ∨ x ∈ before.head? := by
  cases before with
  | nil => exact .inl (Option.mem_some_iff.mp h).symm
  | cons d before =>
    rw [insertMark] at h
    split at h
    · exact .inr h
    · exact .inl (Option.mem_some_iff.mp h).symm

/-- Insertion keeps a text in order, which is given from its end. -/
theorem isChain_insertMark {before : List Char} (c : Char) (h : before.IsChain Follows) :
    (insertMark c before).IsChain Follows := by
  induction before with
  | nil => exact List.isChain_singleton c
  | cons d before ih =>
    obtain ⟨hd, hbefore⟩ := List.isChain_cons.mp h
    rw [insertMark]
    -- the mark goes further back past one of a higher class, or stays here
    split
    · next hpast =>
      refine List.isChain_cons.mpr ⟨fun x hx => ?_, ih hbefore⟩
      rcases head?_insertMark hx with rfl | hx
      · exact .inr hpast.2.le
      · exact hd x hx
    · next hhere =>
      refine List.isChain_cons_cons.mpr ⟨?_, h⟩
      rw [Follows]
      omega

theorem isChain_sortOnto {before : List Char} (cs : List Char) (h : before.IsChain Follows) :
    (sortOnto before cs).IsChain Follows := by
  induction cs generalizing before with
  | nil => exact h
  | cons c cs ih => exact ih (isChain_insertMark c h)

theorem ordered_reverse {before cs : List Char} (h : before.IsChain Follows)
    (hcs : Ordered (firstClass before) cs) : Ordered 0 (before.reverse ++ cs) := by
  induction before generalizing cs with
  | nil => exact hcs
  | cons d before ih =>
    obtain ⟨hd, hbefore⟩ := List.isChain_cons.mp h
    rw [List.reverse_cons, List.append_assoc]
    refine ih hbefore ⟨?_, hcs⟩
    cases before with
    | nil => exact .inr (Nat.zero_le _)
    | cons e before => exact hd e rfl

/-- What has been ordered is in order. -/
theorem ordered_orderMarks (cs : List Char) : Ordered 0 (orderMarks cs) := by
  have h : Ordered 0 ((sortOnto [] cs).reverse ++ []) :=
    ordered_reverse (isChain_sortOnto cs List.isChain_nil) trivial
  rwa [List.append_nil] at h

/-- Ordering keeps the characters of a text. -/
theorem perm_insertMark (c : Char) (before : List Char) :
    (insertMark c before).Perm (c :: before) := by
  induction before with
  | nil => exact .refl _
  | cons d before ih =>
    rw [insertMark]
    split
    · exact (ih.cons d).trans (.swap c d before)
    · exact .refl _

theorem perm_sortOnto (before cs : List Char) : (sortOnto before cs).Perm (cs ++ before) := by
  induction cs generalizing before with
  | nil => exact .refl _
  | cons c cs ih =>
    exact (ih _).trans (((perm_insertMark c before).append_left cs).trans List.perm_middle)

theorem perm_orderMarks (cs : List Char) : (orderMarks cs).Perm cs := by
  have h := perm_sortOnto [] cs
  rw [List.append_nil] at h
  exact (List.reverse_perm _).trans h

/-! ### Composition -/

theorem flatMap_atomic {cs : List Char} (h : ∀ c ∈ cs, Atomic c) :
    cs.flatMap decomposeChar = cs := by
  induction cs with
  | nil => rfl
  | cons c cs ih =>
    obtain ⟨hc, hcs⟩ := List.forall_mem_cons.mp h
    rw [Atomic] at hc
    rw [List.flatMap_cons, hc, ih hcs]
    rfl

/-- What the marks between a starter and a character say about composing the two. -/
theorem composeFrom_cases (starter : Char) (marks : List Char) (c : Char) (rest : List Char) :
    (∃ whole, composePair starter c = some whole ∧
        (∀ m ∈ marks.head?, combiningClass m < combiningClass c) ∧
        composeFrom starter marks (c :: rest) = composeFrom whole marks rest) ∨
      (combiningClass c = 0 ∧
        composeFrom starter marks (c :: rest) = starter :: marks.reverse ++ composeFrom c [] rest) ∨
      (combiningClass c ≠ 0 ∧
        composeFrom starter marks (c :: rest) = composeFrom starter (c :: marks) rest) := by
  simp only [composeFrom]
  split
  · next whole hwhole =>
    refine .inl ⟨whole, ?_⟩
    -- with marks in between, the last of them must not block the character
    cases marks with
    | nil => exact ⟨hwhole, nofun, rfl⟩
    | cons m marks =>
      dsimp only at hwhole
      split at hwhole
      · cases hwhole
      · next hfree => exact ⟨hwhole, by simpa using hfree, rfl⟩
  · split
    · next hzero => exact .inr (.inl ⟨hzero, rfl⟩)
    · next hne => exact .inr (.inr ⟨hne, rfl⟩)

/-- Composition after a starter does not change what a text is decomposed and ordered to. -/
theorem sortOnto_composeFrom {starter : Char} {marks rest : List Char} (before : List Char)
    (hmarks : ∀ m ∈ marks, Atomic m ∧ combiningClass m ≠ 0 ∧ combiningClass m ≤ firstClass marks)
    (hrest : ∀ c ∈ rest, Atomic c) (hordered : Ordered (firstClass marks) rest) :
    sortOnto before ((composeFrom starter marks rest).flatMap decomposeChar) =
      sortOnto before (decomposeChar starter ++ (marks.reverse ++ rest)) := by
  have hflat : marks.reverse.flatMap decomposeChar = marks.reverse :=
    flatMap_atomic fun m hm => (hmarks m (List.mem_reverse.mp hm)).1
  induction rest generalizing starter marks before with
  | nil => rw [composeFrom, List.flatMap_cons, hflat, List.append_nil]
  | cons c rest ih =>
    obtain ⟨hc, hrest⟩ := List.forall_mem_cons.mp hrest
    obtain ⟨hfollows, hordered⟩ := hordered
    rcases composeFrom_cases starter marks c rest with
      ⟨whole, hwhole, hhead, heq⟩ | ⟨hzero, heq⟩ | ⟨hne, heq⟩
    -- the character goes past the marks into the starter
    · have hlt : ∀ m ∈ marks, combiningClass m < combiningClass c := by
        intro m hm
        cases marks with
        | nil => cases hm
        | cons m' marks => exact Nat.lt_of_le_of_lt (hmarks m hm).2.2 (hhead m' rfl)
      have hle : firstClass marks ≤ combiningClass c := by
        cases marks with
        | nil => exact Nat.zero_le _
        | cons m marks => exact (hhead m rfl).le
      have hmarks' : ∀ m ∈ marks.reverse,
          combiningClass m ≠ 0 ∧ combiningClass m < combiningClass c :=
        fun m hm => ⟨(hmarks m (List.mem_reverse.mp hm)).2.1, hlt m (List.mem_reverse.mp hm)⟩
      have hpast := insertMark_sortOnto (sortOnto before (decomposeChar starter)) hmarks'
      rw [heq, ih before hmarks hrest (hordered.mono hle) hflat,
        decomposeChar_of_composePair hwhole hc]
      simp only [sortOnto_append, sortOnto_cons, sortOnto_nil, hpast]
    -- the character is the next starter
    · have hnext : sortOnto (sortOnto before (decomposeChar starter ++ marks.reverse))
          ((composeFrom c [] rest).flatMap decomposeChar) = _ :=
        ih _ (List.forall_mem_nil _) hrest (hordered.mono (Nat.zero_le _)) rfl
      rw [Atomic] at hc
      rw [heq, List.cons_append, List.flatMap_cons, List.flatMap_append, hflat, ← List.append_assoc,
        sortOnto_append, hnext, hc, ← sortOnto_append, List.append_assoc]
      rfl
    -- the character is one more mark
    · have hmarks' : ∀ m ∈ c :: marks,
          Atomic m ∧ combiningClass m ≠ 0 ∧ combiningClass m ≤ firstClass (c :: marks) := by
        refine List.forall_mem_cons.mpr ⟨⟨hc, hne, Nat.le_refl _⟩, fun m hm => ?_⟩
        obtain ⟨hatomic, hm, hle⟩ := hmarks m hm
        exact ⟨hatomic, hm, hle.trans (hfollows.resolve_left hne)⟩
      have hflat' : (c :: marks).reverse.flatMap decomposeChar = (c :: marks).reverse :=
        flatMap_atomic fun m hm => (hmarks' m (List.mem_reverse.mp hm)).1
      rw [heq, ih before hmarks' hrest hordered hflat', List.reverse_cons, List.append_assoc]
      rfl

/-- Composition does not change what a text is decomposed and ordered to. -/
theorem sortOnto_compose {cs : List Char} (before : List Char) {k : Nat} (hcs : ∀ c ∈ cs, Atomic c)
    (hordered : Ordered k cs) :
    sortOnto before ((compose cs).flatMap decomposeChar) = sortOnto before cs := by
  induction cs generalizing before k with
  | nil => rfl
  | cons c cs ih =>
    obtain ⟨hc, hcs⟩ := List.forall_mem_cons.mp hcs
    rw [Atomic] at hc
    -- the first character starts a composition, or stays as it is
    rw [compose]
    split
    · rw [sortOnto_composeFrom before (List.forall_mem_nil _) hcs
        (hordered.2.mono (Nat.zero_le _)), hc]
      rfl
    · rw [List.flatMap_cons, hc, sortOnto_append, ih _ hcs hordered.2]
      rfl

/-! ### Normalization -/

/-- A text and its normal form are canonically equivalent. -/
theorem orderMarks_decompose_normalForm (cs : List Char) :
    orderMarks ((normalForm cs).flatMap decomposeChar) = orderMarks (cs.flatMap decomposeChar) := by
  have hatomic : ∀ c ∈ orderMarks (cs.flatMap decomposeChar), Atomic c := by
    intro c hc
    obtain ⟨d, -, hd⟩ := List.mem_flatMap.mp ((perm_orderMarks _).mem_iff.mp hc)
    exact atomic_of_mem hd
  have hordered := ordered_orderMarks (cs.flatMap decomposeChar)
  have hsorted : sortOnto [] (orderMarks (cs.flatMap decomposeChar)) = _ :=
    sortOnto_of_ordered hordered
  rw [normalForm, orderMarks_eq, sortOnto_compose [] hatomic hordered, hsorted, List.append_nil,
    List.reverse_reverse]

/-- To normalize twice is to normalize once. -/
theorem normalForm_normalForm (cs : List Char) : normalForm (normalForm cs) = normalForm cs := by
  rw [normalForm, orderMarks_decompose_normalForm]
  rfl

end PocketLisp.Text
