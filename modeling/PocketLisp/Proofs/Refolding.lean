/-
PocketLisp/Proofs/Refolding.lean

Folding what has been folded.

Under the upper-case rule a name is normalized and upper-cased after that, but
not normalized again.  The upper case of a text is made of characters that are
their own upper case (`Capital`), and normalization makes no other characters
of these: that is checked once for all entries of the tables
(`mappings_capital`, `composites_capital`).  So to fold a folded name is to
normalize it (`foldChars_foldChars`), which makes a difference where the upper
case of a composed character is not composed.

Main result: `folding_settles`.  A name is folded to itself again, and a symbol
is the one of its own name, exactly if the folded name is in normalization form
C; under the upper-case rule it need not be (`folding_unsettled`).
-/
import PocketLisp.Proofs.Identity

namespace PocketLisp

namespace Text

open Decomposition

/-! ### Characters with another upper case -/

/-- A character is its own upper case. -/
def Capital (c : Char) : Prop := upperChar c = [c]

/-- The numbers of a run, counted from its first. -/
def runOffsets (r : Nat × Nat × Nat × Nat) : List Nat :=
  (List.range ((r.2.1 - r.1) / r.2.2.1 + 1)).map (r.2.2.1 * ·)

/-- The numbers of the characters that have another upper case. -/
def smallCodes : List Nat :=
  upperRuns.flatMap (fun r => (runOffsets r).map (r.1 + ·)) ++ upperExpansions.map Prod.fst

/-- The first run is that of the small letters of ASCII, and no upper case in a run has another. -/
theorem upperRuns_capital : ∀ r ∈ upperRuns, r.1 ≠ r.2.2.2 ∧
    (r.1 = 0x61 ∧ r.2.1 = 0x7A ∨ 0x80 ≤ r.1) ∧
      ∀ k ∈ runOffsets r, r.1 + k ≤ r.2.1 ∧ k % r.2.2.1 = 0 ∧
        (r.2.2.2 + k).isValidChar ∧ ¬ (bitmap smallCodes).testBit (r.2.2.2 + k) := by
  decide +kernel

theorem upperExpansions_capital : ∀ r ∈ upperExpansions, 0x80 ≤ r.1 ∧ 2 ≤ r.2.length ∧
    ∀ t ∈ r.2, t.isValidChar ∧ ¬ (bitmap smallCodes).testBit t := by
  decide +kernel

/-- What has no other upper case is decomposed into what has none. -/
theorem mappings_capital : ∀ m ∈ mappings, ∀ p ∈ m.2,
    (bitmap smallCodes).testBit p → (bitmap smallCodes).testBit m.1 := by
  decide +kernel

/-- What has no other upper case is composed to what has none. -/
theorem composites_capital : ∀ r ∈ composites, (bitmap smallCodes).testBit r.1 →
    (bitmap smallCodes).testBit r.2.1 ∨ (bitmap smallCodes).testBit r.2.2 := by
  decide +kernel

/-- Neither the syllables of Hangul nor their parts have another upper case. -/
theorem smallCodes_ranges : ∀ n ∈ smallCodes, 0x61 ≤ n ∧ (n < 0x1100 ∨ 0x1200 ≤ n) ∧
    (n < 0xAC00 ∨ 0xD7A4 ≤ n) := by
  decide +kernel

theorem mem_runOffsets {r : Nat × Nat × Nat × Nat} {n : Nat} (hlast : n ≤ r.2.1)
    (hstep : (n - r.1) % r.2.2.1 = 0) : n - r.1 ∈ runOffsets r := by
  refine List.mem_map.mpr ⟨(n - r.1) / r.2.2.1, List.mem_range.mpr ?_, ?_⟩
  · exact Nat.lt_succ_of_le (Nat.div_le_div_right (Nat.sub_le_sub_right hlast r.1))
  · exact Nat.mul_div_cancel' (Nat.dvd_of_mod_eq_zero hstep)

theorem mem_smallCodes {n : Nat} : n ∈ smallCodes ↔
    (∃ r ∈ upperRuns, r.1 ≤ n ∧ n ≤ r.2.1 ∧ (n - r.1) % r.2.2.1 = 0) ∨
      ∃ r ∈ upperExpansions, r.1 = n := by
  rw [smallCodes, List.mem_append, List.mem_flatMap, List.mem_map]
  refine or_congr (exists_congr fun r => and_congr_right fun hr => ?_) Iff.rfl
  rw [List.mem_map]
  constructor
  · rintro ⟨k, hk, rfl⟩
    obtain ⟨hlast, hstep, -⟩ := (upperRuns_capital r hr).2.2 k hk
    exact ⟨Nat.le_add_right .., hlast, by rwa [Nat.add_sub_cancel_left]⟩
  · rintro ⟨hfirst, hlast, hstep⟩
    exact ⟨n - r.1, mem_runOffsets hlast hstep, Nat.add_sub_cancel' hfirst⟩

theorem not_mem_smallCodes {n : Nat} (h : ¬ (bitmap smallCodes).testBit n) : n ∉ smallCodes := by
  rwa [testBit_bitmap, decide_eq_true_eq] at h

/-- In ASCII, these are the small letters. -/
theorem mem_smallCodes_of_ascii {n : Nat} (h : n < 0x80) :
    n ∈ smallCodes ↔ 0x61 ≤ n ∧ n ≤ 0x7A := by
  rw [mem_smallCodes]
  constructor
  · rintro (⟨r, hr, hfirst, hlast, -⟩ | ⟨r, hr, rfl⟩)
    · have hascii := (upperRuns_capital r hr).2.1
      omega
    · have hhigh := (upperExpansions_capital r hr).1
      omega
  · rintro ⟨hfirst, hlast⟩
    exact .inl ⟨(0x61, 0x7A, 1, 0x41), List.mem_cons_self, hfirst, hlast, Nat.mod_one _⟩

/-- A small letter of ASCII has another upper case. -/
theorem toUpper_ne {c : Char} (hlow : 0x61 ≤ c.toNat) (hhigh : c.toNat ≤ 0x7A) :
    c.toUpper ≠ c := by
  intro hsame
  have hupper := toNat_toUpper hlow hhigh
  rw [hsame] at hupper
  omega

/-- Such a character has an upper case that has no other. -/
theorem small_of_run {c : Char} {r : Nat × Nat × Nat × Nat} (hr : r ∈ upperRuns)
    (hfirst : r.1 ≤ c.toNat) (hlast : c.toNat ≤ r.2.1) (hstep : (c.toNat - r.1) % r.2.2.1 = 0) :
    c.toNat ∈ smallCodes ∧ Char.ofNat (r.2.2.2 + (c.toNat - r.1)) ≠ c ∧
      (Char.ofNat (r.2.2.2 + (c.toNat - r.1))).toNat ∉ smallCodes := by
  obtain ⟨hne, -, hall⟩ := upperRuns_capital r hr
  obtain ⟨-, -, hvalid, hcapital⟩ := hall _ (mem_runOffsets hlast hstep)
  have hnat := toNat_ofNat hvalid
  refine ⟨mem_smallCodes.mpr (.inl ⟨r, hr, hfirst, hlast, hstep⟩), fun h => ?_, ?_⟩
  · rw [h] at hnat
    omega
  · rw [hnat]
    exact not_mem_smallCodes hcapital

theorem small_of_expansion {c : Char} {r : Nat × List Nat} (hr : r ∈ upperExpansions)
    (hfirst : r.1 = c.toNat) : c.toNat ∈ smallCodes ∧ r.2.map Char.ofNat ≠ [c] ∧
      ∀ d ∈ r.2.map Char.ofNat, d.toNat ∉ smallCodes := by
  obtain ⟨-, hlength, hall⟩ := upperExpansions_capital r hr
  refine ⟨mem_smallCodes.mpr (.inr ⟨r, hr, hfirst⟩), fun h => ?_, ?_⟩
  · have hone : r.2.length = 1 := by simpa using congrArg List.length h
    omega
  · refine List.forall_mem_map.mpr fun t ht => ?_
    rw [toNat_ofNat (hall t ht).1]
    exact not_mem_smallCodes (hall t ht).2

theorem small_of_ascii {c : Char} (h : c.toNat < 0x80) :
    (c.toNat ∉ smallCodes ∧ c.toUpper = c) ∨
      (c.toNat ∈ smallCodes ∧ c.toUpper ≠ c ∧ c.toUpper.toNat ∉ smallCodes) := by
  rw [mem_smallCodes_of_ascii h]
  rcases toUpper_cases c with hsame | ⟨hlow, hhigh, hupper⟩
  · exact .inl ⟨fun hsmall => toUpper_ne hsmall.1 hsmall.2 hsame, hsame⟩
  · refine .inr ⟨⟨hlow, hhigh⟩, toUpper_ne hlow hhigh, fun hsmall => ?_⟩
    have hlarge := (smallCodes_ranges _ hsmall).1
    omega

/-- A character has another upper case, which has none, exactly if its number is listed. -/
theorem upperChar_spec (c : Char) :
    (c.toNat ∉ smallCodes ∧ upperChar c = [c]) ∨
      (c.toNat ∈ smallCodes ∧ upperChar c ≠ [c] ∧ ∀ d ∈ upperChar c, d.toNat ∉ smallCodes) := by
  unfold upperChar
  dsimp only
  -- an ASCII character, one of a run, one with an expansion, or none of these
  split
  · next hascii =>
    rw [ne_eq, List.cons.injEq, and_iff_left rfl, List.forall_mem_singleton]
    exact small_of_ascii hascii
  split
  · next first last step target hfind =>
    have hrange := List.find?_some hfind
    simp only [Bool.and_eq_true, decide_eq_true_eq, beq_iff_eq] at hrange
    obtain ⟨⟨hfirst, hlast⟩, hstep⟩ := hrange
    rw [ne_eq, List.cons.injEq, and_iff_left rfl, List.forall_mem_singleton]
    exact .inr (small_of_run (List.mem_of_find?_eq_some hfind) hfirst hlast hstep)
  · next hruns =>
    split
    · next first targets hfind =>
      have hfirst : first = c.toNat := by simpa using List.find?_some hfind
      exact .inr (small_of_expansion (List.mem_of_find?_eq_some hfind) hfirst)
    · next hexpansions =>
      refine .inl ⟨?_, rfl⟩
      rw [mem_smallCodes]
      rintro (⟨r, hr, hrange⟩ | ⟨r, hr, hfirst⟩)
      · exact List.find?_eq_none.mp hruns r hr (by simpa [and_assoc] using hrange)
      · exact List.find?_eq_none.mp hexpansions r hr (beq_iff_eq.mpr hfirst)

theorem capital_iff {c : Char} : Capital c ↔ c.toNat ∉ smallCodes := by
  rcases upperChar_spec c with ⟨hlarge, heq⟩ | ⟨hsmall, hne, -⟩
  · exact ⟨fun _ => hlarge, fun _ => heq⟩
  · exact ⟨fun h => absurd h hne, fun h => absurd hsmall h⟩

/-! ### Texts of capitals -/

/-- The upper case of a text is made of capitals. -/
theorem capital_of_mem_upper {cs : List Char} {d : Char} (h : d ∈ upper cs) : Capital d := by
  obtain ⟨c, -, hmem⟩ := List.mem_flatMap.mp h
  rcases upperChar_spec c with ⟨hlarge, heq⟩ | ⟨-, -, hall⟩
  · rw [heq, List.mem_singleton] at hmem
    rwa [hmem, capital_iff]
  · exact capital_iff.mpr (hall d hmem)

/-- A text of capitals is its own upper case. -/
theorem upper_of_capital {cs : List Char} (h : ∀ c ∈ cs, Capital c) : upper cs = cs := by
  induction cs with
  | nil => rfl
  | cons c cs ih =>
    obtain ⟨hc, hcs⟩ := List.forall_mem_cons.mp h
    rw [upper, List.flatMap_cons, hc]
    exact congrArg (c :: ·) (ih hcs)

theorem Capital.decompose {c d : Char} (hc : Capital c) (h : d ∈ decomposeChar c) :
    Capital d := by
  rw [capital_iff] at hc ⊢
  refine fun hd => hc (of_mem_decomposeChar (fun m hm p hp => ?_) (fun n hlow hhigh hn => ?_) h hd)
  · have hmapping := mappings_capital m hm p hp
    simpa only [testBit_bitmap, decide_eq_true_eq] using hmapping
  · have hrange := (smallCodes_ranges n hn).2.1
    omega

theorem Capital.compose {a b c : Char} (ha : Capital a) (hb : Capital b)
    (h : composePair a b = some c) : Capital c := by
  rw [capital_iff] at ha hb ⊢
  rw [composePair] at h
  -- a syllable has no case, and a composite of the table is small with one of its parts only
  split at h
  · next n hn =>
    obtain rfl := Option.some.inj h
    obtain ⟨⟨hlow, hhigh⟩, -⟩ := hangulParts_of_compose hn
    rw [toNat_ofNat (.inl (by omega))]
    intro hsmall
    have hrange := (smallCodes_ranges n hsmall).2.2
    omega
  · split at h
    · cases h
    · split at h
      · next n k l hfind =>
        obtain rfl := Option.some.inj h
        have hmem := List.mem_of_find?_eq_some hfind
        obtain ⟨rfl, rfl⟩ : k = a.toNat ∧ l = b.toNat := by simpa using List.find?_some hfind
        have hsound := mappings_sound _ (mem_mappings (decomposeStep_composite hmem))
        have hcomposite := composites_capital _ hmem
        simp only [testBit_bitmap, decide_eq_true_eq] at hcomposite
        rw [toNat_ofNat (hsound.2 n List.mem_cons_self).1]
        exact fun hsmall => (hcomposite hsmall).elim ha hb
      · cases h

/-- What composition keeps of the characters of a text, it keeps of the text. -/
theorem forall_mem_composeFrom {P : Char → Prop}
    (hP : ∀ {a b c}, P a → P b → Text.composePair a b = some c → P c) {starter : Char}
    {marks rest : List Char} (hstarter : P starter) (hmarks : ∀ c ∈ marks, P c)
    (hrest : ∀ c ∈ rest, P c) : ∀ c ∈ composeFrom starter marks rest, P c := by
  induction rest generalizing starter marks with
  | nil =>
    rw [composeFrom]
    exact List.forall_mem_cons.mpr ⟨hstarter, fun c hc => hmarks c (List.mem_reverse.mp hc)⟩
  | cons c rest ih =>
    obtain ⟨hc, hrest⟩ := List.forall_mem_cons.mp hrest
    -- the character is composed with the starter, starts anew, or is one more mark
    rcases composeFrom_cases starter marks c rest with
      ⟨whole, hwhole, -, heq⟩ | ⟨-, heq⟩ | ⟨-, heq⟩ <;> rw [heq]
    · exact ih (hP hstarter hc hwhole) hmarks hrest
    · refine List.forall_mem_append.mpr ⟨List.forall_mem_cons.mpr ⟨hstarter, fun c hc => ?_⟩, ?_⟩
      · exact hmarks c (List.mem_reverse.mp hc)
      · exact ih hc (List.forall_mem_nil _) hrest
    · exact ih hstarter (List.forall_mem_cons.mpr ⟨hc, hmarks⟩) hrest

theorem forall_mem_compose {P : Char → Prop}
    (hP : ∀ {a b c}, P a → P b → Text.composePair a b = some c → P c) {cs : List Char}
    (h : ∀ c ∈ cs, P c) : ∀ c ∈ compose cs, P c := by
  induction cs with
  | nil => exact h
  | cons c cs ih =>
    obtain ⟨hc, hcs⟩ := List.forall_mem_cons.mp h
    rw [compose]
    split
    · exact forall_mem_composeFrom hP hc (List.forall_mem_nil _) hcs
    · exact List.forall_mem_cons.mpr ⟨hc, ih hcs⟩

/-- A text of capitals is normalized to capitals. -/
theorem capital_of_mem_normalForm {cs : List Char} (h : ∀ c ∈ cs, Capital c) :
    ∀ c ∈ normalForm cs, Capital c := by
  refine forall_mem_compose Capital.compose fun d hd => ?_
  obtain ⟨c, hc, hmem⟩ := List.mem_flatMap.mp ((perm_orderMarks _).mem_iff.mp hd)
  exact (h c hc).decompose hmem

end Text

/-! ### Folding again -/

/-- To fold a folded name is to normalize it. -/
theorem CaseRule.foldChars_foldChars (rule : CaseRule) (cs : List Char) :
    rule.foldChars (rule.foldChars cs) = Text.normalForm (rule.foldChars cs) := by
  cases rule with
  | preserve => rfl
  | upper =>
    have hcapital : ∀ c ∈ upper.foldChars cs, Text.Capital c := fun _ => Text.capital_of_mem_upper
    exact Text.upper_of_capital (Text.capital_of_mem_normalForm hcapital)

/-- The normalization form C of a name. -/
def normalName (name : String) : String := String.ofList (Text.normalForm name.toList)

theorem normalName_normalName (name : String) : normalName (normalName name) = normalName name := by
  rw [normalName, normalName, String.toList_ofList, Text.normalForm_normalForm]

theorem CaseRule.fold_fold (rule : CaseRule) (name : String) :
    rule.fold (rule.fold name) = normalName (rule.fold name) := by
  rw [normalName, fold, fold, String.toList_ofList]
  exact congrArg String.ofList (rule.foldChars_foldChars _)

/-- A name that is folded once more stays as it is from then on. -/
theorem CaseRule.fold_fold_fold (rule : CaseRule) (name : String) :
    rule.fold (rule.fold (rule.fold name)) = rule.fold (rule.fold name) := by
  rw [rule.fold_fold (rule.fold name), rule.fold_fold name, normalName_normalName]

namespace SymbolTable

variable {t : SymbolTable} {symbol : Symbol}

/-- The name of a symbol that is answered is some name, folded. -/
theorem exists_fold_of_ask (t : SymbolTable) (query : Query) :
    ∀ symbol ∈ (t.ask query).1, ∃ name, symbol.name = t.caseRule.fold name := by
  intro symbol hsymbol
  cases query with
  | intern name =>
    obtain rfl := Option.some.inj hsymbol
    exact ⟨name, t.name_intern name⟩
  | lookup name => exact ⟨name, name_of_named? hsymbol⟩
  | generate =>
    obtain rfl := Option.some.inj hsymbol
    obtain ⟨k, hk⟩ := t.generate_spec.1
    exact ⟨generatedName k, hk.trans (fold_generatedName _ k).symm⟩

theorem exists_fold_of_exchanges {queries : List Query} {e : Exchange}
    (he : e ∈ t.exchanges queries) (hsymbol : symbol ∈ e.answer) :
    ∃ name, symbol.name = t.caseRule.fold name := by
  induction queries generalizing t with
  | nil => cases he
  | cons query queries ih =>
    rcases List.mem_cons.mp he with rfl | he
    · exact t.exists_fold_of_ask query symbol hsymbol
    · have hrule : (t.ask query).2.caseRule = t.caseRule := (t.after_keeps [query]).1
      exact hrule ▸ ih he

/-- Interning the name of a symbol of the table gives the symbol of the name in normalization
form. -/
theorem intern_name (hhas : t.named? symbol.name = some symbol)
    (hfold : ∃ name, symbol.name = t.caseRule.fold name) :
    (t.intern symbol.name).1.name = normalName symbol.name ∧
      ((t.intern symbol.name).1 = symbol ↔ normalName symbol.name = symbol.name) := by
  have hname : (t.intern symbol.name).1.name = normalName symbol.name := by
    obtain ⟨name, hname⟩ := hfold
    rw [t.name_intern, hname, CaseRule.fold_fold]
  refine ⟨hname, fun hsame => hname.symm.trans (congrArg Symbol.name hsame), fun hnormal => ?_⟩
  have hlookup : t.lookup? symbol.name = some symbol := by
    rw [lookup?_eq_named?, ← t.name_intern, hname, hnormal, hhas]
  exact congrArg Prod.fst (intern_of_lookup? hlookup)

/-- To fold a folded name is to normalize it, and to fold it once more changes nothing.  So a folded
name is folded to itself exactly if it is in normalization form C, as it always is if case is
preserved.  The symbol of the name of a symbol, whatever a new table has been asked, is the one of
that name in normalization form, and thus the same symbol exactly if its name is in that form. -/
theorem folding_settles (realm : Nat) (rule : CaseRule) :
    (∀ name, rule.fold (rule.fold name) = normalName (rule.fold name) ∧
      (rule.fold (rule.fold name) = rule.fold name ↔
        normalName (rule.fold name) = rule.fold name) ∧
      rule.fold (rule.fold (rule.fold name)) = rule.fold (rule.fold name) ∧
      (rule = .preserve → rule.fold (rule.fold name) = rule.fold name)) ∧
    ∀ queries, ∀ e ∈ (empty realm rule).exchanges queries, ∀ symbol ∈ e.answer,
      let again := (((empty realm rule).after queries).intern symbol.name).1
      again.name = normalName symbol.name ∧
        (again = symbol ↔ normalName symbol.name = symbol.name) ∧
        (rule = .preserve → again = symbol) := by
  refine ⟨fun name => ⟨rule.fold_fold name, by rw [rule.fold_fold], rule.fold_fold_fold name, ?_⟩,
    fun queries e he symbol hsymbol => ?_⟩
  · rintro rfl
    exact CaseRule.fold_fold_preserve name
  · -- a symbol answered by the table is named by its folded spelling
    have htells : ((empty realm rule).after queries).Tells _ :=
      (tells_empty realm rule).after queries
    have hrule : ((empty realm rule).after queries).caseRule = rule :=
      ((empty realm rule).after_keeps queries).1
    obtain ⟨name, hname⟩ := exists_fold_of_exchanges he hsymbol
    obtain ⟨hagain, hiff⟩ := intern_name (htells.answered e he symbol hsymbol)
      ⟨name, hname.trans (by rw [hrule]; rfl)⟩
    refine ⟨hagain, hiff, ?_⟩
    rintro rfl
    refine hiff.mpr ?_
    rw [hname, ← CaseRule.fold_fold]
    exact CaseRule.fold_fold_preserve name

/-- An accent is composed with its letter, and the name of the symbol is in normalization form. -/
theorem folding_settles_of_accent :
    let t := (empty 0 .preserve).after [.intern "cafe\u0301"]
    let symbol : Symbol := ⟨0, 0, "caf\u00e9", none⟩
    (empty 0 .preserve).exchanges [.intern "cafe\u0301"] = [⟨.intern "cafe\u0301", some symbol⟩] ∧
      CaseRule.preserve.fold (CaseRule.preserve.fold "cafe\u0301") =
        CaseRule.preserve.fold "cafe\u0301" ∧ (t.intern symbol.name).1 = symbol := by
  intro t symbol
  have hexchanges : (empty 0 .preserve).exchanges [.intern "cafe\u0301"] =
      [⟨.intern "cafe\u0301", some symbol⟩] := by decide +kernel
  have hmem : (⟨.intern "cafe\u0301", some symbol⟩ : Exchange) ∈
      (empty 0 .preserve).exchanges [.intern "cafe\u0301"] := by
    rw [hexchanges]
    exact List.mem_singleton.mpr rfl
  obtain ⟨hnames, hsymbols⟩ := folding_settles 0 .preserve
  exact ⟨hexchanges, (hnames _).2.2.2 rfl, (hsymbols _ _ hmem symbol rfl).2.2 rfl⟩

/-- The upper case of an iota with two accents is a letter and two marks, and the letter is composed
with the first of them if the name is folded again.  So the name of this symbol is the one of
another. -/
theorem folding_unsettled :
    CaseRule.upper.fold "\u0390" = "\u0399\u0308\u0301" ∧
      CaseRule.upper.fold "\u0399\u0308\u0301" = "\u03aa\u0301" ∧
      (¬ ∀ (rule : CaseRule) (name : String), rule.fold (rule.fold name) = rule.fold name) ∧
      let t := (empty 0 .upper).after [.intern "\u0390"]
      let symbol := ((empty 0 .upper).intern "\u0390").1
      t.named? symbol.name = some symbol ∧ (t.intern symbol.name).1 ≠ symbol := by
  have hunsettled : CaseRule.upper.fold (CaseRule.upper.fold "\u0390") ≠
      CaseRule.upper.fold "\u0390" := by decide +kernel
  refine ⟨by decide +kernel, by decide +kernel, fun h => hunsettled (h _ _), ?_⟩
  decide +kernel

end SymbolTable

end PocketLisp
