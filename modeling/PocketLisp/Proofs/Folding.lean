/-
PocketLisp/Proofs/Folding.lean

What folding makes of words.

An atom is cut out of a text and told from a number before its name is folded.
Whether the folded name would be cut out and told in the same way depends on
what normalization and upper-casing make of single characters, which is
checked once for all entries of their tables (`mappings_words`,
`composites_words`, `upperRuns_words`, `upperExpansions_words`).

Main results: the folded name of a word is a word, unless it has a semicolon in
it (`Word.fold`), and no number if the word is none (`parse?_fold`).
Normalization does make a semicolon, of the Greek question mark.
-/
import PocketLisp.Proofs.Lexing
import PocketLisp.Proofs.Normalization
import PocketLisp.Symbol.Keyword

namespace PocketLisp

open Text Text.Decomposition

/-! ### Characters that matter -/

/-- The delimiters, except for the semicolon. -/
def delimiterCodes : List Nat :=
  [0x09, 0x0A, 0x0B, 0x0C, 0x0D, 0x20, 0x22, 0x28, 0x29, 0x85, 0xA0, 0x1680, 0x2000, 0x2001, 0x2002,
    0x2003, 0x2004, 0x2005, 0x2006, 0x2007, 0x2008, 0x2009, 0x200A, 0x2028, 0x2029, 0x202F, 0x205F,
    0x3000]

/-- The characters of decimal literals. -/
def literalCodes : List Nat :=
  [0x2B, 0x2D, 0x2E, 0x30, 0x31, 0x32, 0x33, 0x34, 0x35, 0x36, 0x37, 0x38, 0x39, 0x45, 0x65]

theorem isDelimiter_iff (c : Char) :
    Token.isDelimiter c = true ↔ c = ';' ∨ c.toNat ∈ delimiterCodes := by
  simp only [Token.isDelimiter, isBlank, delimiterCodes, Bool.or_eq_true, Bool.and_eq_true,
    beq_iff_eq, decide_eq_true_eq, List.mem_cons, List.not_mem_nil, or_false, ← Char.toNat_inj,
    Char.reduceToNat]
  omega

theorem isLiteralChar_iff (c : Char) :
    Number.isLiteralChar c = true ↔ c.toNat ∈ literalCodes := by
  simp only [Number.isLiteralChar, Number.isDigit, literalCodes, Bool.or_eq_true, Bool.and_eq_true,
    beq_iff_eq, decide_eq_true_eq, List.mem_cons, List.not_mem_nil, or_false, ← Char.toNat_inj,
    Char.le_def, UInt32.le_iff_toNat_le, Char.toNat_val, Char.reduceToNat]
  omega

/-- A mapping makes no delimiter of another character, no quote mark, and never only characters of
decimal literals. -/
theorem mappings_words : ∀ m ∈ mappings,
    (∀ p ∈ m.2, ((bitmap delimiterCodes).testBit p → (bitmap delimiterCodes).testBit m.1) ∧
      p ≠ 0x27) ∧ ∃ p ∈ m.2, ¬ (bitmap literalCodes).testBit p := by
  decide +kernel

theorem composites_words : ∀ r ∈ composites, ¬ (bitmap delimiterCodes).testBit r.1 := by
  decide +kernel

/-- Beyond ASCII, a character with one upper-case character has none that matters. -/
theorem upperRuns_words : ∀ r ∈ upperRuns, r.2.1 < 0x80 ∨
    (r.2.2.2 + (r.2.1 - r.1) < 0xD800 ∨ 0xDFFF < r.2.2.2 ∧ r.2.2.2 + (r.2.1 - r.1) < 0x110000) ∧
      ∀ k ∈ 0x27 :: (delimiterCodes ++ literalCodes),
        k < r.2.2.2 ∨ r.2.2.2 + (r.2.1 - r.1) < k := by
  decide +kernel

/-- Several upper-case characters are no delimiters, no quote marks and not all characters of
decimal literals. -/
theorem upperExpansions_words : ∀ r ∈ upperExpansions,
    (∀ t ∈ r.2, t.isValidChar ∧ t ∉ 0x27 :: delimiterCodes) ∧ ∃ t ∈ r.2, t ∉ literalCodes := by
  decide +kernel

namespace Text

/-! ### Decomposition -/

/-- What no mapping makes of anything else, decomposition makes of nothing else. -/
theorem of_mem_decomposeWithin {Q : Nat → Prop} (hQ : ∀ m ∈ mappings, ∀ p ∈ m.2, Q p → Q m.1)
    {d n x : Nat} (h : x ∈ decomposeWithin d n) (hx : Q x) : Q n := by
  induction d generalizing n with
  | zero =>
    obtain rfl : x = n := by simpa [decomposeWithin] using h
    exact hx
  | succ d ih =>
    rw [decomposeWithin] at h
    split at h
    · next parts hstep =>
      obtain ⟨p, hp, hmem⟩ := List.mem_flatMap.mp h
      exact hQ _ (mem_mappings hstep) p hp (ih hmem)
    · obtain rfl : x = n := by simpa using h
      exact hx

/-- The decomposition of a character, as numbers. -/
theorem map_toNat_decomposeChar (c : Char) : (decomposeChar c).map Char.toNat =
    if 0xAC00 ≤ c.toNat ∧ c.toNat < 0xD7A4 then hangulParts c.toNat
    else decomposeWithin 4 c.toNat := by
  have hmap : ∀ ns : List Nat, (∀ n ∈ ns, n.isValidChar) →
      (ns.map Char.ofNat).map Char.toNat = ns := by
    intro ns hns
    rw [List.map_map]
    exact (List.map_congr_left fun n hn => toNat_ofNat (hns n hn)).trans (List.map_id ns)
  split
  · -- the parts of a syllable are characters of Hangul
    next hsyllable =>
    rw [decomposeChar, if_neg (by omega), if_pos hsyllable]
    refine hmap _ fun n hn => .inl ?_
    have hrange := of_mem_hangulParts hsyllable.1 hsyllable.2 hn
    omega
  · -- those of any other are in the table, or it has none
    next htable =>
    rw [decomposeChar_eq (by omega)]
    refine hmap _ fun n hn => ?_
    rcases sound_of_mem_decomposeWithin hn with rfl | hsound
    · exact c.valid
    · exact hsound.1

/-- The same for characters: nothing of that kind is a part of a syllable. -/
theorem of_mem_decomposeChar {Q : Nat → Prop} (hQ : ∀ m ∈ mappings, ∀ p ∈ m.2, Q p → Q m.1)
    (hhangul : ∀ n, 0x1100 ≤ n → n < 0x1200 → ¬ Q n) {c d : Char} (h : d ∈ decomposeChar c)
    (hd : Q d.toNat) : Q c.toNat := by
  have hmem : d.toNat ∈ (decomposeChar c).map Char.toNat := List.mem_map_of_mem h
  rw [map_toNat_decomposeChar] at hmem
  split at hmem
  · next hsyllable =>
    obtain ⟨hlow, hhigh⟩ := of_mem_hangulParts hsyllable.1 hsyllable.2 hmem
    exact absurd hd (hhangul _ hlow hhigh)
  · exact of_mem_decomposeWithin hQ hmem hd

/-- Decomposition makes no delimiter of other characters, the semicolon apart. -/
theorem delimiter_of_mem_decomposeChar {c d : Char} (h : d ∈ decomposeChar c)
    (hd : d.toNat ∈ delimiterCodes) : c.toNat ∈ delimiterCodes := by
  refine of_mem_decomposeChar (fun m hm p hp => ?_) (fun n hlow hhigh => ?_) h hd
  · have hwords := ((mappings_words m hm).1 p hp).1
    simpa only [testBit_bitmap, decide_eq_true_eq] using hwords
  · simp only [delimiterCodes, List.mem_cons, List.not_mem_nil, or_false]
    omega

/-- Decomposition makes no quote mark of other characters. -/
theorem quote_of_mem_decomposeChar {c : Char} (h : '\'' ∈ decomposeChar c) : c = '\'' := by
  rw [← Char.toNat_inj]
  exact of_mem_decomposeChar (fun m hm p hp heq => absurd heq ((mappings_words m hm).1 p hp).2)
    (fun n hlow _ heq => absurd (heq ▸ hlow) (by decide)) h rfl

/-- A number that is decomposed into characters of decimal literals is one itself. -/
theorem literal_of_decomposeWithin {d n : Nat}
    (h : ∀ x ∈ decomposeWithin d n, x ∈ literalCodes) : n ∈ literalCodes := by
  induction d generalizing n with
  | zero => exact h n (by simp [decomposeWithin])
  | succ d ih =>
    rw [decomposeWithin] at h
    split at h
    · next parts hstep =>
      obtain ⟨p, hp, hnot⟩ := (mappings_words _ (mem_mappings hstep)).2
      have hliteral := ih fun x hx => h x (List.mem_flatMap.mpr ⟨p, hp, hx⟩)
      rw [testBit_bitmap] at hnot
      exact absurd (decide_eq_true hliteral) hnot
    · exact h n (List.mem_singleton.mpr rfl)

theorem literal_of_decomposeChar {c : Char}
    (h : ∀ d ∈ decomposeChar c, d.toNat ∈ literalCodes) : c.toNat ∈ literalCodes := by
  have hall : ∀ x ∈ (decomposeChar c).map Char.toNat, x ∈ literalCodes :=
    List.forall_mem_map.mpr h
  rw [map_toNat_decomposeChar] at hall
  split at hall
  · next hsyllable =>
    obtain ⟨x, hx⟩ : ∃ x, x ∈ hangulParts c.toNat := by
      rw [hangulParts]
      split <;> exact ⟨_, List.mem_cons_self⟩
    have hrange := of_mem_hangulParts hsyllable.1 hsyllable.2 hx
    have hliteral := hall x hx
    simp only [literalCodes, List.mem_cons, List.not_mem_nil, or_false] at hliteral
    omega
  · exact literal_of_decomposeWithin hall

/-! ### Composition -/

/-- Composition makes no delimiter, and nothing of ASCII. -/
theorem not_delimiter_of_composePair {a b c : Char} (h : composePair a b = some c) :
    c.toNat ∉ delimiterCodes ∧ 0xC0 ≤ c.toNat := by
  rw [composePair] at h
  split at h
  · -- a syllable of Hangul
    next n hn =>
    obtain rfl := Option.some.inj h
    obtain ⟨⟨hlow, hhigh⟩, -⟩ := hangulParts_of_compose hn
    rw [toNat_ofNat (.inl (by omega))]
    simp only [delimiterCodes, List.mem_cons, List.not_mem_nil, or_false]
    omega
  · split at h
    · cases h
    · split at h
      · -- a composite of the table
        next n _ _ hfind =>
        obtain rfl := Option.some.inj h
        have hmem := List.mem_of_find?_eq_some hfind
        have hsound := mappings_sound _ (mem_mappings (decomposeStep_composite hmem))
        have hwords := composites_words _ hmem
        rw [testBit_bitmap, decide_eq_true_eq] at hwords
        rw [toNat_ofNat (hsound.2 n List.mem_cons_self).1]
        exact ⟨hwords, hsound.1.1⟩
      · cases h

/-- A character that composition leaves stood there before, or is composed. -/
theorem mem_composeFrom {starter d : Char} {marks rest : List Char}
    (h : d ∈ composeFrom starter marks rest) :
    (d = starter ∨ d ∈ marks ∨ d ∈ rest) ∨ ∃ a b, composePair a b = some d := by
  induction rest generalizing starter marks with
  | nil =>
    rw [composeFrom, List.mem_cons, List.mem_reverse] at h
    exact .inl (h.imp_right .inl)
  | cons c rest ih =>
    -- composed with the starter, a starter itself, or one more mark
    rcases composeFrom_cases starter marks c rest with
      ⟨whole, hwhole, -, heq⟩ | ⟨-, heq⟩ | ⟨-, heq⟩
    · rw [heq] at h
      rcases ih h with (rfl | h | h) | h
      · exact .inr ⟨_, _, hwhole⟩
      all_goals simp [h]
    · rw [heq, List.cons_append, List.mem_cons, List.mem_append, List.mem_reverse] at h
      rcases h with h | h | h
      · simp [h]
      · simp [h]
      · rcases ih h with (h | h | h) | h
        · simp [h]
        · cases h
        all_goals simp [h]
    · rw [heq] at h
      rcases ih h with (h | h | h) | h
      · simp [h]
      · rcases List.mem_cons.mp h with h | h <;> simp [h]
      all_goals simp [h]

theorem mem_compose {d : Char} {cs : List Char} (h : d ∈ compose cs) :
    d ∈ cs ∨ ∃ a b, composePair a b = some d := by
  induction cs with
  | nil => cases h
  | cons c cs ih =>
    rw [compose] at h
    split at h
    · rcases mem_composeFrom h with (h | h | h) | h
      · simp [h]
      · cases h
      all_goals simp [h]
    · rcases List.mem_cons.mp h with h | h
      · simp [h]
      · exact (ih h).imp_left (List.mem_cons_of_mem c)

/-- The first character stays the first one, or is composed. -/
theorem head?_composeFrom {starter d : Char} {marks rest : List Char}
    (h : d ∈ (composeFrom starter marks rest).head?) :
    d = starter ∨ ∃ a b, composePair a b = some d := by
  induction rest generalizing starter marks with
  | nil => exact .inl (Option.mem_some_iff.mp h).symm
  | cons c rest ih =>
    rcases composeFrom_cases starter marks c rest with
      ⟨whole, hwhole, -, heq⟩ | ⟨-, heq⟩ | ⟨-, heq⟩ <;> rw [heq] at h
    · rcases ih h with rfl | h
      · exact .inr ⟨_, _, hwhole⟩
      · exact .inr h
    · exact .inl (Option.mem_some_iff.mp h).symm
    · exact ih h

theorem head?_compose {d : Char} {cs : List Char} (h : d ∈ (compose cs).head?) :
    d ∈ cs.head? ∨ ∃ a b, composePair a b = some d := by
  cases cs with
  | nil => exact .inl h
  | cons c cs =>
    rw [compose] at h
    split at h
    · exact (head?_composeFrom h).imp_left fun heq => Option.mem_some_iff.mpr heq.symm
    · exact .inl h

/-! ### The order of marks -/

theorem insertMark_ne_nil (c : Char) (before : List Char) : insertMark c before ≠ [] := by
  intro hnil
  have hperm := perm_insertMark c before
  rw [hnil] at hperm
  cases hperm.nil_eq

/-- Insertion into a text, which is given from its end, brings no character to its front that starts
a run of marks. -/
theorem getLast?_insertMark {c d e : Char} {before : List Char} (he : combiningClass e = 0)
    (h : e ∈ (insertMark c (d :: before)).getLast?) : e ∈ (d :: before).getLast? := by
  induction before generalizing d with
  | nil =>
    rw [insertMark] at h
    split at h
    · -- a mark is not moved past a character that is none
      next hpast =>
      obtain rfl : c = e := Option.mem_some_iff.mp h
      exact absurd he hpast.1
    · exact h
  | cons f before ih =>
    rw [insertMark] at h
    split at h
    · rw [List.getLast?_cons_of_ne_nil (insertMark_ne_nil c _)] at h
      exact ih h
    · exact h

theorem getLast?_sortOnto {d e : Char} {before : List Char} (he : combiningClass e = 0)
    (cs : List Char) (h : e ∈ (sortOnto (d :: before) cs).getLast?) :
    e ∈ (d :: before).getLast? := by
  induction cs generalizing d before with
  | nil => exact h
  | cons c cs ih =>
    rw [sortOnto_cons] at h
    obtain ⟨d', before', hinsert⟩ : ∃ d' before', insertMark c (d :: before) = d' :: before' :=
      List.exists_cons_of_ne_nil (insertMark_ne_nil c _)
    rw [hinsert] at h
    have hlast := ih h
    rw [← hinsert] at hlast
    exact getLast?_insertMark he hlast

/-- A character that starts a run of marks is the first one after ordering only if it was before. -/
theorem head?_orderMarks {e : Char} {cs : List Char} (he : combiningClass e = 0)
    (h : e ∈ (orderMarks cs).head?) : e ∈ cs.head? := by
  rw [orderMarks_eq, List.head?_reverse] at h
  cases cs with
  | nil => cases h
  | cons c cs => exact getLast?_sortOnto he cs h

/-! ### Normalization -/

/-- Normalization makes no delimiter of other characters, the semicolon apart. -/
theorem delimiter_of_mem_normalForm {cs : List Char} {d : Char} (h : d ∈ normalForm cs)
    (hd : d.toNat ∈ delimiterCodes) : ∃ c ∈ cs, c.toNat ∈ delimiterCodes := by
  rcases mem_compose h with h | ⟨a, b, hcompose⟩
  · obtain ⟨c, hc, hmem⟩ := List.mem_flatMap.mp ((perm_orderMarks _).mem_iff.mp h)
    exact ⟨c, hc, delimiter_of_mem_decomposeChar hmem hd⟩
  · exact absurd hd (not_delimiter_of_composePair hcompose).1

theorem ascii_of_literal {c : Char} (h : c.toNat ∈ literalCodes) : c.toNat < 0x80 := by
  simp only [literalCodes, List.mem_cons, List.not_mem_nil, or_false] at h
  omega

theorem atomic_of_ascii {c : Char} (h : c.toNat < 0x80) : Atomic c := if_pos (by omega)

theorem decomposeChar_ne_nil (c : Char) : decomposeChar c ≠ [] := by
  intro hnil
  have hatomic : Atomic c :=
    atomic_of_ascii (ascii_of_literal (literal_of_decomposeChar (by simp [hnil])))
  rw [Atomic, hnil] at hatomic
  cases hatomic

/-- Normalization brings no quote mark to the front of a text. -/
theorem quote_of_head?_normalForm {cs : List Char} (h : '\'' ∈ (normalForm cs).head?) :
    '\'' ∈ cs.head? := by
  rcases head?_compose h with h | ⟨a, b, hcompose⟩
  · have hfirst := head?_orderMarks rfl h
    cases cs with
    | nil => exact hfirst
    | cons c cs =>
      obtain ⟨d, ds, hds⟩ := List.exists_cons_of_ne_nil (decomposeChar_ne_nil c)
      rw [List.flatMap_cons, hds] at hfirst
      obtain rfl : d = '\'' := Option.mem_some_iff.mp hfirst
      exact Option.mem_some_iff.mpr (quote_of_mem_decomposeChar (hds ▸ List.mem_cons_self))
  · exact absurd (not_delimiter_of_composePair hcompose).2 (by decide)

theorem normalForm_ne_nil {cs : List Char} (h : cs ≠ []) : normalForm cs ≠ [] := by
  intro hnil
  -- a text and its normal form are decomposed into the same characters
  have hequivalent := orderMarks_decompose_normalForm cs
  rw [hnil] at hequivalent
  have hperm := (perm_orderMarks (cs.flatMap decomposeChar)).symm
  rw [← hequivalent] at hperm
  obtain ⟨c, cs, rfl⟩ := List.exists_cons_of_ne_nil h
  rw [List.flatMap_cons] at hperm
  exact decomposeChar_ne_nil c (List.append_eq_nil_iff.mp hperm.eq_nil).1

/-- No ASCII character is a mark. -/
theorem combiningClass_of_ascii {c : Char} (h : c.toNat < 0x80) : combiningClass c = 0 :=
  if_pos (Nat.lt_of_lt_of_le h (by decide))

theorem orderMarks_of_ascii {cs : List Char} (h : ∀ c ∈ cs, c.toNat < 0x80) :
    orderMarks cs = cs := by
  have hordered : ∀ k, Ordered k cs := by
    induction cs with
    | nil => exact fun _ => trivial
    | cons c cs ih =>
      obtain ⟨hc, hcs⟩ := List.forall_mem_cons.mp h
      exact fun _ => ⟨.inl (combiningClass_of_ascii hc), ih hcs _⟩
  have hsorted : sortOnto [] cs = _ := sortOnto_of_ordered (hordered 0)
  rw [orderMarks_eq, hsorted, List.append_nil, List.reverse_reverse]

theorem composeFrom_of_ascii {cs : List Char} (a : Char) (h : ∀ c ∈ cs, c.toNat < 0x80) :
    composeFrom a [] cs = a :: cs := by
  induction cs generalizing a with
  | nil => rfl
  | cons c cs ih =>
    obtain ⟨hc, hcs⟩ := List.forall_mem_cons.mp h
    -- no ASCII character composes with one in front of it
    have hpair : composePair a c = none := by
      have hhangul : hangulCompose a.toNat c.toNat = none := by
        rw [hangulCompose, if_neg (by omega), if_neg (by omega)]
      simp only [composePair, hhangul]
      exact if_pos (by omega)
    rcases composeFrom_cases a [] c cs with ⟨whole, hwhole, -, -⟩ | ⟨-, heq⟩ | ⟨hne, -⟩
    · rw [hpair] at hwhole
      cases hwhole
    · rw [heq, ih c hcs]
      rfl
    · exact absurd (combiningClass_of_ascii hc) hne

/-- An ASCII text is in normalization form C. -/
theorem normalForm_of_ascii {cs : List Char} (h : ∀ c ∈ cs, c.toNat < 0x80) :
    normalForm cs = cs := by
  rw [normalForm, flatMap_atomic fun c hc => atomic_of_ascii (h c hc), orderMarks_of_ascii h]
  cases cs with
  | nil => rfl
  | cons c cs =>
    obtain ⟨hc, hcs⟩ := List.forall_mem_cons.mp h
    rw [compose, if_pos (combiningClass_of_ascii hc), composeFrom_of_ascii c hcs]

/-- Only a text of characters of decimal literals is normalized to one, and it is left as it is. -/
theorem normalForm_of_literal {cs : List Char}
    (h : ∀ c ∈ normalForm cs, c.toNat ∈ literalCodes) : normalForm cs = cs := by
  have hsame : normalForm cs = orderMarks (cs.flatMap decomposeChar) := by
    rw [← orderMarks_decompose_normalForm,
      flatMap_atomic fun c hc => atomic_of_ascii (ascii_of_literal (h c hc)),
      orderMarks_of_ascii fun c hc => ascii_of_literal (h c hc)]
  have hparts : ∀ d ∈ cs.flatMap decomposeChar, d.toNat ∈ literalCodes := by
    intro d hd
    exact h d (hsame ▸ (perm_orderMarks _).mem_iff.mpr hd)
  have hcs : ∀ c ∈ cs, Atomic c := fun c hc =>
    atomic_of_ascii (ascii_of_literal (literal_of_decomposeChar fun d hd =>
      hparts d (List.mem_flatMap.mpr ⟨c, hc, hd⟩)))
  rw [hsame, orderMarks_of_ascii fun d hd => ascii_of_literal (hparts d hd), flatMap_atomic hcs]

/-! ### Upper case -/

theorem val_range_iff {c : Char} :
    c.val ≥ 'a'.val ∧ c.val ≤ 'z'.val ↔ 0x61 ≤ c.toNat ∧ c.toNat ≤ 0x7A := by
  simp only [UInt32.le_iff_toNat_le, Char.toNat_val, Char.reduceVal, UInt32.reduceToNat]

/-- The capital letters of ASCII stand in front of the small ones. -/
theorem toNat_toUpper {c : Char} (hlow : 0x61 ≤ c.toNat) (hhigh : c.toNat ≤ 0x7A) :
    c.toUpper.toNat + 0x20 = c.toNat := by
  obtain ⟨hvalid, hupper⟩ : ∃ h, c.toUpper = ⟨c.val + ('A'.val - 'a'.val), h⟩ :=
    ⟨_, dif_pos (val_range_iff.mpr ⟨hlow, hhigh⟩)⟩
  rw [hupper, ← Char.toNat_val, UInt32.toNat_add, Char.toNat_val]
  simp only [Char.reduceVal, UInt32.reduceSub, UInt32.reduceToNat]
  omega

theorem toUpper_cases (c : Char) :
    c.toUpper = c ∨ 0x61 ≤ c.toNat ∧ c.toNat ≤ 0x7A ∧ c.toUpper.toNat + 0x20 = c.toNat := by
  by_cases h : 0x61 ≤ c.toNat ∧ c.toNat ≤ 0x7A
  · exact .inr ⟨h.1, h.2, toNat_toUpper h.1 h.2⟩
  · exact .inl (dif_neg (mt val_range_iff.mp h))

/-- The upper case of an ASCII character is one character.  That of any other one is the character
itself, or has no delimiter and no quote mark in it and is not made of characters of decimal
literals only. -/
theorem upperChar_cases (c : Char) :
    (c.toNat < 0x80 ∧ upperChar c = [c.toUpper]) ∨ (0x80 ≤ c.toNat ∧ upperChar c = [c]) ∨
      (∀ d ∈ upperChar c, d.toNat ∉ 0x27 :: delimiterCodes) ∧
        ∃ d ∈ upperChar c, d.toNat ∉ literalCodes := by
  unfold upperChar
  dsimp only
  split
  · next hascii => exact .inl ⟨hascii, rfl⟩
  · next hhigh =>
    refine .inr ?_
    split
    · -- a run of characters that have one upper case each
      next first last step target hfind =>
      have hrange := List.find?_some hfind
      simp only [Bool.and_eq_true, decide_eq_true_eq] at hrange
      have hwords := upperRuns_words _ (List.mem_of_find?_eq_some hfind)
      obtain ⟨hvalid, hother⟩ := hwords.resolve_left (by dsimp only; omega)
      dsimp only at hvalid hother
      have hnat : (Char.ofNat (target + (c.toNat - first))).toNat = target + (c.toNat - first) :=
        toNat_ofNat (hvalid.imp (by omega) (by omega))
      have hnot : target + (c.toNat - first) ∉ 0x27 :: (delimiterCodes ++ literalCodes) := by
        intro hmem
        have hbounds := hother _ hmem
        omega
      refine .inr ⟨List.forall_mem_singleton.mpr ?_, _, List.mem_singleton.mpr rfl, ?_⟩
      · rw [hnat]
        exact fun hmem => hnot (List.cons_subset_cons _ (List.subset_append_left ..) hmem)
      · rw [hnat]
        exact fun hmem => hnot (List.mem_cons_of_mem _ (List.mem_append_right _ hmem))
    · split
      · -- a character whose upper case is in the table, of several characters perhaps
        next targets hfind =>
        obtain ⟨hall, t, ht, hliteral⟩ := upperExpansions_words _ (List.mem_of_find?_eq_some hfind)
        refine .inr ⟨List.forall_mem_map.mpr fun k hk => ?_, _, List.mem_map_of_mem ht, ?_⟩
        · rw [toNat_ofNat (hall k hk).1]
          exact (hall k hk).2
        · rw [toNat_ofNat (hall t ht).1]
          exact hliteral
      · -- a character without another upper case
        exact .inl ⟨by omega, rfl⟩

/-- Upper-casing makes no delimiter of other characters. -/
theorem delimiter_of_mem_upper {cs : List Char} {d : Char} (h : d ∈ upper cs)
    (hd : d.toNat ∈ delimiterCodes) : d ∈ cs := by
  obtain ⟨c, hc, hmem⟩ := List.mem_flatMap.mp h
  -- a letter becomes a letter, and what is no letter stays what it is
  suffices hdc : d = c from hdc ▸ hc
  rcases upperChar_cases c with ⟨-, heq⟩ | ⟨-, heq⟩ | ⟨hnone, -⟩
  · rw [heq, List.mem_singleton] at hmem
    rcases toUpper_cases c with hsame | hletter
    · rw [hmem, hsame]
    · rw [hmem] at hd
      simp only [delimiterCodes, List.mem_cons, List.not_mem_nil, or_false] at hd
      omega
  · rwa [heq, List.mem_singleton] at hmem
  · exact absurd (List.mem_cons_of_mem _ hd) (hnone d hmem)

/-- Upper-casing brings no quote mark to the front of a text. -/
theorem quote_of_head?_upper {cs : List Char} (h : '\'' ∈ (upper cs).head?) : '\'' ∈ cs.head? := by
  cases cs with
  | nil => exact h
  | cons c cs =>
    rw [upper, List.flatMap_cons] at h
    refine Option.mem_some_iff.mpr ?_
    -- no other character has an upper case with a quote mark in it
    rcases upperChar_cases c with ⟨-, heq⟩ | ⟨-, heq⟩ | ⟨hnone, e, he, -⟩
    · rw [heq] at h
      have hquote : c.toUpper = '\'' := Option.mem_some_iff.mp h
      rcases toUpper_cases c with hsame | hletter
      · rw [← hquote, hsame]
      · simp only [hquote, Char.reduceToNat] at hletter
        omega
    · rw [heq] at h
      exact Option.mem_some_iff.mp h
    · obtain ⟨d, ds, hds⟩ := List.exists_cons_of_ne_nil (List.ne_nil_of_mem he)
      rw [hds] at h hnone
      obtain rfl : d = '\'' := Option.mem_some_iff.mp h
      exact absurd List.mem_cons_self (hnone _ List.mem_cons_self)

/-- An ASCII text without small letters is its own upper case. -/
theorem upper_of_ascii {cs : List Char} (h : ∀ c ∈ cs, c.toNat < 0x61) : upper cs = cs := by
  induction cs with
  | nil => rfl
  | cons c cs ih =>
    obtain ⟨hc, hcs⟩ := List.forall_mem_cons.mp h
    have hsame : upperChar c = [c] := by
      rw [upperChar, if_pos (by omega)]
      rcases toUpper_cases c with heq | ⟨hlow, -⟩
      · rw [heq]
      · omega
    rw [upper, List.flatMap_cons, hsame]
    exact congrArg (c :: ·) (ih hcs)

theorem upper_ne_nil {cs : List Char} (h : cs ≠ []) : upper cs ≠ [] := by
  obtain ⟨c, cs, rfl⟩ := List.exists_cons_of_ne_nil h
  rw [upper, List.flatMap_cons]
  rcases upperChar_cases c with ⟨-, heq⟩ | ⟨-, heq⟩ | ⟨-, e, he, -⟩
  · simp [heq]
  · simp [heq]
  · exact List.append_ne_nil_of_left_ne_nil (List.ne_nil_of_mem he) _

/-- A text that becomes one of characters of decimal literals is ASCII. -/
theorem upper_of_literal {cs : List Char} (h : ∀ c ∈ upper cs, c.toNat ∈ literalCodes) :
    upper cs = cs.map Char.toUpper := by
  induction cs with
  | nil => rfl
  | cons c cs ih =>
    have hcons : upper (c :: cs) = upperChar c ++ upper cs := rfl
    rw [hcons] at h ⊢
    rw [ih fun d hd => h d (List.mem_append_right _ hd), List.map_cons]
    rcases upperChar_cases c with ⟨-, heq⟩ | ⟨hhigh, heq⟩ | ⟨-, d, hd, hother⟩
    · rw [heq]
      rfl
    · have hliteral := h c (List.mem_append_left _ (heq ▸ List.mem_singleton.mpr rfl))
      simp only [literalCodes, List.mem_cons, List.not_mem_nil, or_false] at hliteral
      omega
    · exact absurd (h d (List.mem_append_left _ hd)) hother

end Text

/-! ### Decimal literals -/

namespace Number

theorem isDigit_toUpper (c : Char) : isDigit c.toUpper = isDigit c := by
  rcases toUpper_cases c with heq | hletter
  · rw [heq]
  · simp only [isDigit, Char.le_def, UInt32.le_iff_toNat_le, Char.toNat_val, Char.reduceToNat]
    rw [Bool.eq_iff_iff]
    simp only [Bool.and_eq_true, decide_eq_true_eq]
    omega

/-- Only `e` and `E` become characters of decimal literals that they were not. -/
theorem toUpper_eq_iff {c d : Char} (hd : d.toNat < 0x41) : c.toUpper = d ↔ c = d := by
  rcases toUpper_cases c with heq | hletter
  · rw [heq]
  · rw [← Char.toNat_inj, ← Char.toNat_inj]
    omega

theorem toUpper_of_isDigit {c : Char} (h : isDigit c = true) : c.toUpper = c := by
  rcases toUpper_cases c with heq | hletter
  · exact heq
  · simp only [isDigit, Char.le_def, UInt32.le_iff_toNat_le, Char.toNat_val, Char.reduceToNat,
      Bool.and_eq_true, decide_eq_true_eq] at h
    omega

theorem takeSign_map (cs : List Char) :
    takeSign (cs.map Char.toUpper) = ((takeSign cs).1, (takeSign cs).2.map Char.toUpper) := by
  cases cs with
  | nil => rfl
  | cons c cs =>
    have hminus : c.toUpper = '-' ↔ c = '-' := toUpper_eq_iff (by decide)
    have hplus : c.toUpper = '+' ↔ c = '+' := toUpper_eq_iff (by decide)
    rw [List.map_cons]
    unfold takeSign
    split <;> split <;> simp_all

theorem takeDigits_map (cs : List Char) :
    takeDigits (cs.map Char.toUpper) = ((takeDigits cs).1, (takeDigits cs).2.map Char.toUpper) := by
  have hdigit : isDigit ∘ Char.toUpper = isDigit := funext isDigit_toUpper
  have hsame : (cs.takeWhile isDigit).map Char.toUpper = cs.takeWhile isDigit :=
    (List.map_congr_left fun c hc =>
      toUpper_of_isDigit (List.all_eq_true.mp List.all_takeWhile c hc)).trans (List.map_id _)
  rw [takeDigits, List.takeWhile_map, List.dropWhile_map, hdigit, hsame]
  rfl

theorem takeMantissa_map (cs : List Char) : takeMantissa (cs.map Char.toUpper) =
    (takeMantissa cs).map fun (digits, rest) => (digits, rest.map Char.toUpper) := by
  have hpoint : ∀ c : Char, c.toUpper = '.' ↔ c = '.' := fun c => toUpper_eq_iff (by decide)
  rw [takeMantissa, takeMantissa, takeDigits_map]
  -- with digits in front of the point or without, and with something behind them or not
  rcases takeDigits cs with ⟨- | ⟨d, digits⟩, - | ⟨c, rest⟩⟩
  · rfl
  · by_cases hc : c = '.'
    · subst hc
      have hdot : '.'.toUpper = '.' := rfl
      simp only [List.map_cons, hdot, takeDigits_map]
      rcases takeDigits rest with ⟨- | ⟨d, digits⟩, rest'⟩ <;> rfl
    · have hc' := (hpoint c).not.mpr hc
      simp [hc, hc']
  · rfl
  · by_cases hc : c = '.'
    · subst hc
      have hdot : '.'.toUpper = '.' := rfl
      simp only [List.map_cons, hdot, takeDigits_map]
      rfl
    · have hc' := (hpoint c).not.mpr hc
      simp [hc, hc']

theorem exponentOf?_map (cs : List Char) :
    exponentOf? (cs.map Char.toUpper) = exponentOf? cs := by
  cases cs with
  | nil => rfl
  | cons c cs =>
    have hmark : c.toUpper = 'e' ∨ c.toUpper = 'E' ↔ c = 'e' ∨ c = 'E' := by
      rcases toUpper_cases c with heq | hletter
      · rw [heq]
      · simp only [← Char.toNat_inj, Char.reduceToNat]
        omega
    rw [List.map_cons, exponentOf?, exponentOf?, takeSign_map]
    dsimp only
    rw [takeDigits_map]
    simp only [hmark]
    rcases takeDigits (takeSign cs).2 with ⟨- | ⟨d, digits⟩, - | ⟨e, rest⟩⟩ <;> rfl

/-- A decimal literal may be written with capitals. -/
theorem parse?_map_toUpper (cs : List Char) : parse? (cs.map Char.toUpper) = parse? cs := by
  rw [parse?, parse?, Literal.of?, Literal.of?, takeSign_map]
  dsimp only
  rw [takeMantissa_map]
  rcases takeMantissa (takeSign cs).2 with - | ⟨⟨whole, fraction⟩, rest⟩
  · rfl
  · simp only [Option.map_some, Option.bind_eq_bind, Option.bind_some, exponentOf?_map]

end Number

/-! ### Folded names -/

variable {cs : List Char}

/-- The folded name of a word is a word, unless there is a semicolon in it. -/
theorem Word.fold (rule : CaseRule) (h : Word cs) (hsemi : ';' ∉ rule.foldChars cs) :
    Word (rule.foldChars cs) := by
  have hcodes : ∀ d ∈ normalForm cs, d.toNat ∉ delimiterCodes := by
    intro d hd hcode
    obtain ⟨c, hc, hcode⟩ := delimiter_of_mem_normalForm hd hcode
    exact Bool.false_ne_true ((h.plain c hc).symm.trans ((isDelimiter_iff c).mpr (.inr hcode)))
  have hplain : ∀ d ∈ rule.foldChars cs, Token.isDelimiter d = false := by
    intro d hd
    refine Bool.eq_false_iff.mpr fun hdelimiter => ?_
    rcases (isDelimiter_iff d).mp hdelimiter with rfl | hcode
    · exact hsemi hd
    · cases rule with
      | preserve => exact hcodes d hd hcode
      | upper => exact hcodes d (delimiter_of_mem_upper hd hcode) hcode
  -- a word with a quote mark in front of it would be no atom
  have hquote : '\'' ∉ (normalForm cs).head? := fun hhead =>
    h.unquoted (quote_of_head?_normalForm hhead)
  cases rule with
  | preserve => exact ⟨normalForm_ne_nil h.ne_nil, hplain, hquote⟩
  | upper =>
    exact ⟨upper_ne_nil (normalForm_ne_nil h.ne_nil), hplain,
      fun hhead => hquote (quote_of_head?_upper hhead)⟩

theorem parse?_normalForm (h : Number.parse? cs = none) : Number.parse? (normalForm cs) = none := by
  refine Option.eq_none_iff_forall_ne_some.mpr fun x hx => ?_
  have hliteral := (Number.literal_of_parse? hx).2
  rw [normalForm_of_literal fun c hc => (isLiteralChar_iff c).mp (hliteral c hc), h] at hx
  cases hx

/-- The folded name of what is no number is no number. -/
theorem parse?_fold (rule : CaseRule) (h : Number.parse? cs = none) :
    Number.parse? (rule.foldChars cs) = none := by
  cases rule with
  | preserve => exact parse?_normalForm h
  | upper =>
    refine Option.eq_none_iff_forall_ne_some.mpr fun x hx => ?_
    have hliteral := (Number.literal_of_parse? hx).2
    rw [CaseRule.foldChars, upper_of_literal fun c hc => (isLiteralChar_iff c).mp (hliteral c hc),
      Number.parse?_map_toUpper, parse?_normalForm h] at hx
    cases hx

/-- If case is preserved, to fold twice is to fold once. -/
theorem CaseRule.fold_fold_preserve (name : String) :
    preserve.fold (preserve.fold name) = preserve.fold name := by
  rw [fold, fold, String.toList_ofList]
  exact congrArg String.ofList (normalForm_normalForm _)

end PocketLisp
