/-
PocketLisp/Proofs/LetterCase.lean

Letter case does not matter where names are folded to upper case.

Two texts that differ in the case of letters only, and not between quote marks
(`Source.Recased`), are read in step.  What is skipped and what ends a token is
no letter, so their tokens are equally long; numbers are written with one
letter, which may be a capital; and the names of symbols are folded before they
are interned (`Source.Recased.next`).  Readings that are put together of parts
that go in step go in step (`Reading.InStep`).

All of Mathlib is imported since no part of it has the lemmas of Batteries on the
case of ASCII letters.

Main result: `case_is_ignored`.
-/
import Mathlib
import PocketLisp.Proofs.Folding
import PocketLisp.Proofs.Grammar
import PocketLisp.Proofs.Keeping

namespace PocketLisp

/-! ### Characters in either case -/

/-- An ASCII character, and the same character, perhaps in another case. -/
def CaseVariant (c d : Char) : Prop :=
  c.toNat < 0x80 ∧ (d = c ∨ d = c.toUpper ∨ d = c.toLower)

instance (c d : Char) : Decidable (CaseVariant c d) := instDecidableAnd

theorem toNat_of_isAlpha {c : Char} (h : c.isAlpha = true) :
    0x41 ≤ c.toNat ∧ c.toNat ≤ 0x5A ∨ 0x61 ≤ c.toNat ∧ c.toNat ≤ 0x7A := by
  simp only [Char.isAlpha, Char.isUpper, Char.isLower, Bool.or_eq_true, Bool.and_eq_true,
    decide_eq_true_eq, UInt32.le_iff_toNat_le, Char.toNat_val, Char.reduceVal,
    UInt32.reduceToNat] at h
  exact h

theorem Token.isDelimiter_of_isAlpha {c : Char} (h : c.isAlpha = true) : isDelimiter c = false := by
  refine Bool.eq_false_iff.mpr fun hdelimiter => ?_
  have hletter := toNat_of_isAlpha h
  rcases (isDelimiter_iff c).mp hdelimiter with rfl | hcode
  · revert h
    decide
  · simp only [delimiterCodes, List.mem_cons, List.not_mem_nil, or_false] at hcode
    omega

theorem Text.isBlank_of_isAlpha {c : Char} (h : c.isAlpha = true) : isBlank c = false :=
  Bool.eq_false_iff.mpr fun hblank => by
    have hdelimiter := Token.isDelimiter_of_isAlpha h
    simp [Token.isDelimiter, hblank] at hdelimiter

namespace CaseVariant

variable {c d e : Char}

/-- Only letters have variants, and these are letters. -/
theorem eq_or_isAlpha (h : CaseVariant c d) : d = c ∨ c.isAlpha = true ∧ d.isAlpha = true := by
  by_cases hc : c.isAlpha = true
  · refine .inr ⟨hc, ?_⟩
    rcases h.2 with rfl | rfl | rfl
    · exact hc
    · rwa [Char.isAlpha_toUpper_eq_isAlpha]
    · rwa [Char.isAlpha_toLower_eq_isAlpha]
  · simp only [Char.isAlpha, Bool.or_eq_true, not_or] at hc
    rcases h.2 with rfl | rfl | rfl
    · exact .inl rfl
    · exact .inl (Char.toUpper_eq_of_not_isLower hc.2)
    · exact .inl (Char.toLower_eq_of_not_isUpper hc.1)

theorem toUpper (h : CaseVariant c d) : d.toUpper = c.toUpper := by
  rcases h.2 with rfl | rfl | rfl
  · rfl
  · exact Char.toUpper_toUpper_eq_toUpper c
  · exact Char.toUpper_toLower_eq_toUpper c

theorem ascii (h : CaseVariant c d) : d.toNat < 0x80 := by
  rcases h.eq_or_isAlpha with rfl | ⟨-, hd⟩
  · exact h.1
  · have hletter := toNat_of_isAlpha hd
    omega

/-- What holds of no letter does not tell variants apart. -/
theorem congr {p : Char → Bool} (h : CaseVariant c d)
    (hp : ∀ {e : Char}, e.isAlpha = true → p e = false) : p d = p c := by
  rcases h.eq_or_isAlpha with rfl | ⟨hc, hd⟩
  · rfl
  · rw [hp hc, hp hd]

/-- What is no letter is a variant of itself only. -/
theorem eq_iff (h : CaseVariant c d) (he : e.isAlpha = false) : d = e ↔ c = e := by
  have hp : ∀ {f : Char}, f.isAlpha = true → (f == e) = false := by
    intro f hf
    refine beq_eq_false_iff_ne.mpr ?_
    rintro rfl
    exact absurd (hf.symm.trans he) nofun
  have hsame : (d == e) = (c == e) := h.congr hp
  rw [← beq_iff_eq, hsame, beq_iff_eq]

theorem isBlank (h : CaseVariant c d) : Text.isBlank d = Text.isBlank c :=
  h.congr Text.isBlank_of_isAlpha

theorem isDelimiter (h : CaseVariant c d) : Token.isDelimiter d = Token.isDelimiter c :=
  h.congr Token.isDelimiter_of_isAlpha

end CaseVariant

/-! ### Texts in either case -/

/-- Where a character of a source stands. -/
inductive Place where
  | outside
  | comment
  /-- between quote marks -/
  | text
  /-- between quote marks, behind a backslash -/
  | escaped
  deriving DecidableEq, Repr

namespace Place

/-- The place behind a character. -/
def behind : Place → Char → Place
  | .outside, c => if c = '"' then .text else if c = ';' then .comment else .outside
  | .comment, c => if c = '\n' then .outside else .comment
  | .text, c => if c = '"' then .outside else if c = '\\' then .escaped else .text
  | .escaped, _ => .text

/-- Between quote marks a character is what it is; elsewhere it may be written in another case. -/
def Admits : Place → Char → Char → Prop
  | .outside, c, d | .comment, c, d => CaseVariant c d
  | .text, c, d | .escaped, c, d => d = c

instance (place : Place) (c d : Char) : Decidable (place.Admits c d) :=
  match place with
  | .outside | .comment => inferInstanceAs (Decidable (CaseVariant c d))
  | .text | .escaped => inferInstanceAs (Decidable (d = c))

/-- A character that is told from a quote mark and from a semicolon opens neither a text nor a
comment. -/
theorem behind_outside {p : Char → Bool} {c : Char} {b : Bool} (hc : p c = b) (hquote : p '"' ≠ b)
    (hsemi : p ';' ≠ b) : outside.behind c = .outside := by
  rw [behind, if_neg, if_neg]
  · rintro rfl
    exact hsemi hc
  · rintro rfl
    exact hquote hc

end Place

/-- Two sources that differ in the case of letters only, and not between quote marks. -/
inductive Source.Recased : Place → Source → Source → Prop
  | nil {place : Place} : Recased place [] []
  | cons {place : Place} {c d : Char} {cs ds : Source} : place.Admits c d →
      Recased (place.behind c) cs ds → Recased place (c :: cs) (d :: ds)

theorem Source.Recased.cons_iff {place : Place} {c d : Char} {cs ds : Source} :
    Recased place (c :: cs) (d :: ds) ↔ place.Admits c d ∧ Recased (place.behind c) cs ds := by
  constructor
  · rintro (_ | ⟨hd, hrest⟩)
    exact ⟨hd, hrest⟩
  · exact fun h => .cons h.1 h.2

instance Source.Recased.decidable :
    (place : Place) → (cs ds : Source) → Decidable (Recased place cs ds)
  | _, [], [] => isTrue .nil
  | _, [], _ :: _ | _, _ :: _, [] => isFalse nofun
  | place, c :: cs, _ :: ds =>
    have := Source.Recased.decidable (place.behind c) cs ds
    decidable_of_iff _ cons_iff.symm

/-- Tokens that stand for the same where names are folded to upper case. -/
inductive Token.Alike : Token → Token → Prop
  | refl (token : Token) : Alike token token
  | symbol {name name' : String} : CaseRule.upper.fold name' = CaseRule.upper.fold name →
      Alike (.symbol name) (.symbol name')

namespace Source.Recased

variable {place : Place} {cs ds : Source}

theorem length_eq (h : Recased place cs ds) : ds.length = cs.length := by
  induction h with
  | nil => rfl
  | cons _ _ ih => exact congrArg Nat.succ ih

theorem nil_iff (h : Recased place cs ds) : ds = [] ↔ cs = [] := by
  cases h with
  | nil => exact Iff.rfl
  | cons => exact ⟨nofun, nofun⟩

/-! #### Blanks and comments -/

theorem skipFrom {inComment : Bool}
    (h : Recased (bif inComment then .comment else .outside) cs ds) :
    Recased .outside (cs.skipFrom inComment) (ds.skipFrom inComment) := by
  induction cs generalizing inComment ds with
  | nil =>
    cases h
    exact .nil
  | cons c cs ih =>
    cases h with | @cons _ _ d _ ds hd hrest =>
    cases inComment with
    | true =>
      -- a line feed has no case, so both comments end at the same place
      have hend : d = '\n' ↔ c = '\n' := CaseVariant.eq_iff hd rfl
      rw [Source.skipFrom, Source.skipFrom, if_pos rfl, if_pos rfl,
        decide_eq_decide.mpr (not_congr hend)]
      refine ih ?_
      by_cases hc : c = '\n' <;> simpa [Place.behind, hc] using hrest
    | false =>
      -- blanks and semicolons have no case either
      have hblank : Text.isBlank d = Text.isBlank c := CaseVariant.isBlank hd
      have hsemi : d = ';' ↔ c = ';' := CaseVariant.eq_iff hd rfl
      simp only [Source.skipFrom, hblank, hsemi, Bool.false_eq_true, if_false]
      by_cases hc : Text.isBlank c = true
      · have hbehind : Place.outside.behind c = .outside :=
          Place.behind_outside hc (by decide) (by decide)
        rw [if_pos hc, if_pos hc]
        exact ih (hbehind ▸ hrest)
      · rw [if_neg hc, if_neg hc]
        by_cases hcomment : c = ';'
        · rw [if_pos hcomment, if_pos hcomment]
          exact ih (by simpa [Place.behind, hcomment] using hrest)
        · rw [if_neg hcomment, if_neg hcomment]
          exact .cons hd hrest

theorem skip (h : Recased .outside cs ds) : Recased .outside cs.skip ds.skip :=
  @skipFrom cs ds false h

/-! #### Tokens -/

/-- A text in quotes is the same in both sources. -/
theorem takeText {collected : List Char} (h : Recased .text cs ds) :
    Token.takeText collected cs = none ∧ Token.takeText collected ds = none ∨
      ∃ content rest rest', Token.takeText collected cs = some (content, rest) ∧
        Token.takeText collected ds = some (content, rest') ∧ Recased .outside rest rest' := by
  fun_induction Token.takeText collected cs generalizing ds with
  | case1 collected =>
    cases h
    exact .inl ⟨rfl, rfl⟩
  | case2 collected cs =>
    cases h with | cons hd hrest =>
    obtain rfl := hd
    exact .inr ⟨_, _, _, rfl, rfl, hrest⟩
  | case3 collected =>
    -- a text cut off after its backslash
    cases h with | cons hd hrest =>
    obtain rfl := hd
    cases hrest
    exact .inl ⟨rfl, rfl⟩
  | case4 collected c cs ih =>
    -- inside a text the two are equal, an escaped character included
    cases h with | cons hd hrest =>
    obtain rfl := hd
    cases hrest with | cons hd hrest =>
    obtain rfl := hd
    exact ih hrest
  | case5 collected c cs hquote hlast hescape ih =>
    cases h with | @cons _ _ d _ ds hd hrest =>
    obtain rfl := hd
    -- a backslash would have fallen under one of the two cases before
    have hplain : d ≠ '\\' := by
      rintro rfl
      cases cs with
      | nil => exact hlast rfl rfl
      | cons c cs => exact hescape c cs rfl rfl
    have hbehind : Place.text.behind d = .text := by
      rw [Place.behind, if_neg hquote, if_neg hplain]
    rw [Token.takeText_other hquote hplain]
    exact ih (hbehind ▸ hrest)

/-- Words of equal length, with variants at the same places. -/
theorem word (h : Recased .outside cs ds) :
    List.Forall₂ CaseVariant (cs.takeWhile fun c => !Token.isDelimiter c)
        (ds.takeWhile fun c => !Token.isDelimiter c) ∧
      Recased .outside (cs.dropWhile fun c => !Token.isDelimiter c)
        (ds.dropWhile fun c => !Token.isDelimiter c) := by
  induction cs generalizing ds with
  | nil =>
    cases h
    exact ⟨.nil, .nil⟩
  | cons c cs ih =>
    cases h with | @cons _ _ d _ ds hd hrest =>
    -- letters delimit in neither case, so both words end at the same place
    have hsame : Token.isDelimiter d = Token.isDelimiter c := CaseVariant.isDelimiter hd
    cases hc : Token.isDelimiter c with
    | true =>
      simp only [List.takeWhile_cons, List.dropWhile_cons, hsame, hc, Bool.not_true,
        Bool.false_eq_true, if_false]
      exact ⟨.nil, .cons hd hrest⟩
    | false =>
      have hbehind : Place.outside.behind c = .outside :=
        Place.behind_outside hc (by decide) (by decide)
      rw [hbehind] at hrest
      obtain ⟨hword, hrest⟩ := ih hrest
      simp only [List.takeWhile_cons, List.dropWhile_cons, hsame, hc, Bool.not_false, if_true]
      exact ⟨.cons hd hword, hrest⟩

end Source.Recased

section Words

variable {cs ds : List Char}

theorem Text.upper_of_all_ascii (h : ∀ c ∈ cs, c.toNat < 0x80) :
    upper cs = cs.map Char.toUpper := by
  induction cs with
  | nil => rfl
  | cons c cs ih =>
    obtain ⟨hc, hcs⟩ := List.forall_mem_cons.mp h
    rw [upper, List.flatMap_cons, upperChar, if_pos hc]
    exact congrArg (c.toUpper :: ·) (ih hcs)

theorem CaseRule.foldChars_of_ascii (h : ∀ c ∈ cs, c.toNat < 0x80) :
    upper.foldChars cs = cs.map Char.toUpper := by
  rw [foldChars, Text.normalForm_of_ascii h, Text.upper_of_all_ascii h]

/-- Words with variants at the same places are equal numbers, or are folded to the same name. -/
theorem Token.Alike.ofAtom (h : List.Forall₂ CaseVariant cs ds) :
    Alike (Token.ofAtom cs) (Token.ofAtom ds) := by
  have hupper : ds.map Char.toUpper = cs.map Char.toUpper := by
    induction h with
    | nil => rfl
    | cons hd _ ih => rw [List.map_cons, List.map_cons, hd.toUpper, ih]
  have hcs : ∀ c ∈ cs, c.toNat < 0x80 := by
    clear hupper
    induction h with
    | nil => nofun
    | cons hd _ ih => exact List.forall_mem_cons.mpr ⟨hd.1, ih⟩
  have hds : ∀ d ∈ ds, d.toNat < 0x80 := by
    clear hupper hcs
    induction h with
    | nil => nofun
    | cons hd _ ih => exact List.forall_mem_cons.mpr ⟨hd.ascii, ih⟩
  -- an exponent's e may change its case, and nothing else of a number has any
  have hparse : Number.parse? ds = Number.parse? cs := by
    rw [← Number.parse?_map_toUpper ds, hupper, Number.parse?_map_toUpper]
  rw [Token.ofAtom, Token.ofAtom, hparse]
  rcases Number.parse? cs with - | x
  · refine .symbol ?_
    rw [CaseRule.fold, CaseRule.fold, String.toList_ofList, String.toList_ofList,
      CaseRule.foldChars_of_ascii hds, CaseRule.foldChars_of_ascii hcs, hupper]
  · exact .refl _

end Words

/-- What has been taken from two sources: tokens that stand for the same, or the same fault. -/
inductive Token.TakenAlike : Except Fault Token × Source → Except Fault Token × Source → Prop
  | token {token token' : Token} {rest rest' : Source} : token.Alike token' →
      rest.Recased .outside rest' → TakenAlike (.ok token, rest) (.ok token', rest')
  | fault (f : Fault) {rest rest' : Source} : rest.Recased .outside rest' →
      TakenAlike (.error f, rest) (.error f, rest')

namespace Source.Recased

variable {cs ds : Source}

theorem take_quote (h : Recased .text cs ds) :
    Token.TakenAlike (Token.take ('"' :: cs)) (Token.take ('"' :: ds)) := by
  rcases @takeText cs ds [] h with ⟨hnone, hnone'⟩ | ⟨content, rest, rest', htaken, htaken', hrest⟩
  · simp only [Token.take, hnone, hnone']
    exact .fault _ .nil
  · simp only [Token.take, htaken, htaken']
    exact .token (.refl _) hrest

theorem take (h : Recased .outside cs ds) : Token.TakenAlike (Token.take cs) (Token.take ds) := by
  obtain ⟨hword, hbehind⟩ := h.word
  cases h with
  | nil => exact .token (.refl _) .nil
  | @cons _ c d cs ds hd hrest =>
    have hself : c.isAlpha = false → d = c := fun hc => (CaseVariant.eq_iff hd hc).mpr rfl
    by_cases hopen : c = '('
    · subst hopen
      rw [hself rfl]
      exact .token (.refl .leftParen) hrest
    by_cases hclose : c = ')'
    · subst hclose
      rw [hself rfl]
      exact .token (.refl .rightParen) hrest
    by_cases hmark : c = '\''
    · subst hmark
      rw [hself rfl]
      exact .token (.refl .quote) hrest
    by_cases hquote : c = '"'
    · subst hquote
      rw [hself rfl]
      exact take_quote hrest
    -- what starts otherwise is an atom in both sources
    have hne : ∀ e : Char, e.isAlpha = false → c ≠ e → d ≠ e := fun e he =>
      mt (CaseVariant.eq_iff hd he).mp
    rw [Token.take.eq_6 c cs hopen hclose hmark hquote,
      Token.take.eq_6 d ds (hne _ rfl hopen) (hne _ rfl hclose) (hne _ rfl hmark)
        (hne _ rfl hquote)]
    exact .token (.ofAtom hword) hbehind

/-- The next token is taken alike. -/
theorem next (h : Recased .outside cs ds) : Token.TakenAlike (Token.next cs) (Token.next ds) :=
  h.skip.take

end Source.Recased

/-! ### Readings in step -/

/-- What has come of two readings: the same, in the same store, and of their sources is left what
differs in the case of letters only.  The names of a frame are folded to upper case. -/
inductive Reading.SameEnd {α : Type} (env : FrameId) :
    Except Stop (Except Fault α × Source) × Store →
      Except Stop (Except Fault α × Source) × Store → Prop
  | ended (r : Except Fault α) {rest rest' : Source} {t : Store} :
      rest.Recased .outside rest' → (t.symbols env).caseRule = .upper →
        SameEnd env (.ok (r, rest), t) (.ok (r, rest'), t)
  | stopped (e : Stop) (t : Store) : SameEnd env (.error e, t) (.error e, t)

/-- Two readings end in the same way, if their sources differ in the case of letters only. -/
def Reading.InStep {α : Type} (env : FrameId) (m m' : Reading α) : Prop :=
  ∀ (source source' : Source) (s : Store), source.Recased .outside source' →
    (s.symbols env).caseRule = .upper → Reading.SameEnd env (m source s) (m' source' s)

/-- The case rule of a frame is settled with its realm. -/
theorem Store.SameHeap.caseRule {s t : Store} (h : s.SameHeap t) (env : FrameId) :
    (t.symbols env).caseRule = (s.symbols env).caseRule := by
  show (t.symbolsAt (t.realmOf env)).caseRule = (s.symbolsAt (s.realmOf env)).caseRule
  rw [h.realmOf env]
  exact (h.names (s.realmOf env)).caseRule

theorem Reading.SameEnd.riseIn {α : Type} {env : FrameId}
    {x x' : Except Stop (Except Fault α × Source) × Store} (h : SameEnd env x x') (realm : Nat) :
    SameEnd env (x.1, x.2.riseIn realm) (x'.1, x'.2.riseIn realm) := by
  cases h with
  | ended r hrest hrule =>
    exact .ended r hrest (((Store.SameHeap.riseIn _ realm).caseRule env).trans hrule)
  | stopped e t => exact .stopped e _

namespace Reading.InStep

variable {α β : Type} {env : FrameId} {m m' : Reading α} {k k' : α → Reading β}

protected theorem pure (a : α) : InStep env (pure a) (pure a) :=
  fun _ _ _ h hrule => .ended (.ok a) h hrule

protected theorem throw (f : Fault) : InStep env (throw f : Reading α) (throw f) :=
  fun _ _ _ h hrule => .ended (.error f) h hrule

/-- Runs that do the same and leave the case rule alone. -/
protected theorem ofRun {body body' : Run α}
    (hsame : ∀ s : Store, (s.symbols env).caseRule = .upper → body' s = body s)
    (hheap : ∀ s : Store, s.SameHeap (body s).2) : InStep env (ofRun body) (ofRun body') := by
  intro source source' s h hrule
  rw [ofRun_apply, ofRun_apply, hsame s hrule]
  have hkept := (hheap s).caseRule env
  rcases hbody : body s with ⟨(f | _) | a, t⟩ <;> rw [hbody] at hkept
  · exact .ended _ h (hkept.trans hrule)
  · exact .stopped _ _
  · exact .ended _ h (hkept.trans hrule)

protected theorem bind (hm : InStep env m m') (hk : ∀ a, InStep env (k a) (k' a)) :
    InStep env (m >>= k) (m' >>= k') := by
  intro source source' s h hrule
  have hend := hm source source' s h hrule
  generalize hx : m source s = x at hend
  generalize hx' : m' source' s = x' at hend
  cases hend with
  | stopped e t =>
    rw [bind_apply_stop hx, bind_apply_stop hx']
    exact .stopped e t
  | ended r hrest hrule =>
    cases r with
    | error f =>
      rw [bind_apply_fault hx, bind_apply_fault hx']
      exact .ended _ hrest hrule
    | ok a =>
      rw [bind_apply_ok hx, bind_apply_ok hx']
      exact hk a _ _ _ hrest hrule

/-- What is done with a token depends on what it stands for. -/
theorem token_bind {k k' : Token → Reading β}
    (hk : ∀ token token', token.Alike token' → InStep env (k token) (k' token')) :
    InStep env (Reading.token >>= k) (Reading.token >>= k') := by
  intro source source' s h hrule
  have htaken := h.next
  generalize hx : Token.next source = x at htaken
  generalize hx' : Token.next source' = x' at htaken
  cases htaken with
  | fault f hrest =>
    rw [bind_apply_fault (token_of_next hx s), bind_apply_fault (token_of_next hx' s)]
    exact .ended _ hrest hrule
  | token halike hrest =>
    rw [bind_apply_ok (token_of_next hx s), bind_apply_ok (token_of_next hx' s)]
    exact hk _ _ halike _ _ s hrest hrule

/-- The sources that are left are equally long. -/
theorem get_bind {k k' : Source → Reading β}
    (hk : ∀ source source', source'.length = source.length → InStep env (k source) (k' source')) :
    InStep env (MonadState.get >>= k) (MonadState.get >>= k') :=
  fun source source' s h hrule => hk source source' h.length_eq source source' s h hrule

end Reading.InStep

/-! ### The reader -/

open Reading

/-- Forms are read as data in step, if their first tokens stand for the same. -/
def Recur.InStep (env : FrameId) (self : Recur) : Prop :=
  ∀ token token', token.Alike token' →
    Reading.InStep env (self.parse token .data env) (self.parse token' .data env)

section Reader

variable {env : FrameId} {self : Recur} (h : self.InStep env)
include h

theorem form_inStep : InStep env (self.form .data env) (self.form .data env) :=
  InStep.token_bind h

/-- The elements of a list are bounded by what is left to read, which is equally long. -/
theorem elements_inStep {bound bound' : Source} (hbound : bound'.length = bound.length)
    (items : Array Value) :
    InStep env (Run.Parsing.elements self .data env bound items)
      (Run.Parsing.elements self .data env bound' items) := by
  induction bound generalizing bound' items with
  | nil =>
    obtain rfl := List.eq_nil_of_length_eq_zero hbound
    exact InStep.throw _
  | cons c bound ih =>
    obtain ⟨c', bound', rfl⟩ := List.exists_cons_of_length_eq_add_one hbound
    -- the tokens that start an element, whatever the element is
    have hmore : ∀ token token', token.Alike token' →
        InStep env
          (self.parse token .data env >>= fun v =>
            Run.Parsing.elements self .data env bound (items.push v))
          (self.parse token' .data env >>= fun v =>
            Run.Parsing.elements self .data env bound' (items.push v)) :=
      fun token token' halike => (h token token' halike).bind fun v =>
        ih (Nat.succ.inj hbound) (items.push v)
    refine InStep.token_bind fun token token' halike => ?_
    cases halike with
    | symbol hname => exact hmore _ _ (.symbol hname)
    | refl =>
      cases token with
      | rightParen => exact InStep.pure _
      | endOfInput => exact InStep.throw _
      | _ => exact hmore _ _ (.refl _)

theorem list_inStep :
    InStep env (Run.Parsing.list self .data env) (Run.Parsing.list self .data env) := by
  refine InStep.get_bind fun source source' hlength => ?_
  refine (elements_inStep h hlength #[]).bind fun items => ?_
  exact InStep.ofRun (fun _ _ => rfl) fun s => .of_eq rfl rfl rfl

end Reader

/-- Names that are folded to the same name are interned as the same symbol. -/
theorem Store.intern_of_folded {s : Store} {env : FrameId} {name name' : String}
    (h : (s.symbols env).caseRule.fold name' = (s.symbols env).caseRule.fold name) :
    s.intern env name' = s.intern env name := by
  rw [Store.symbols] at h
  rw [Store.intern, Store.intern, SymbolTable.intern, SymbolTable.intern, h]

theorem parsing_inStep {env : FrameId} {self : Recur} (h : self.InStep env) {token token' : Token}
    (halike : token.Alike token') :
    InStep env (Run.Parsing.form self token .data env)
      (Run.Parsing.form self token' .data env) := by
  -- two words that fold alike name one symbol, any other token is the same twice
  cases halike with
  | @symbol name name' hname =>
    refine InStep.ofRun (fun s hrule => ?_) fun s => ?_
    · rw [Run.Parsing.atom_apply, Run.Parsing.atom_apply, Store.intern_of_folded (hrule ▸ hname)]
    · rw [Run.Parsing.atom_apply]
      exact .intern s env name
  | refl =>
    cases token with
    | endOfInput | rightParen => exact InStep.throw _
    | leftParen => exact list_inStep h
    | quote =>
      refine (form_inStep h).bind fun v => InStep.ofRun (fun _ _ => rfl) fun s => ?_
      rw [Run.Parsing.quoted_apply]
      exact ⟨rfl, rfl, (Store.SameHeap.intern s env _).size,
        (Store.SameHeap.intern s env _).constants, (Store.SameHeap.intern s env _).names⟩
    | number x => exact InStep.pure _
    | text content => exact InStep.ofRun (fun _ _ => rfl) fun s => .of_eq rfl rfl rfl
    | symbol name =>
      refine InStep.ofRun (fun _ _ => rfl) fun s => ?_
      rw [Run.Parsing.atom_apply]
      exact .intern s env name

theorem run_inStep (env : FrameId) (rounds calls : Nat) : (run rounds calls).InStep env := by
  induction calls with
  | zero => exact fun _ _ _ source source' s _ _ => .stopped _ s
  | succ calls ih =>
    intro token token' halike source source' s hsource hrule
    have hform := parsing_inStep ih halike
    -- a nested step is counted for lists alone, and alike on both sides
    by_cases hlist : token = .leftParen
    · subst hlist
      cases halike
      show SameEnd env (run rounds (calls + 1) (.parse .leftParen .data env source) s)
        (run rounds (calls + 1) (.parse .leftParen .data env source') s)
      by_cases hroom : (s.level (s.realmOf env)).HasRoom
      · have hdeep := (Store.SameHeap.deepen s env).caseRule env
        have hend := hform source source' (s.deepen env) hsource (hdeep.trans hrule)
        rw [Run.run_parse_list hroom, Run.run_parse_list hroom]
        exact hend.riseIn (s.realmOf env)
      · rw [Run.run_parse_refused hroom, Run.run_parse_refused hroom]
        exact .ended _ hsource hrule
    · have hlist' : token' ≠ .leftParen := by
        cases halike with
        | refl => exact hlist
        | symbol => nofun
      show SameEnd env (run rounds (calls + 1) (.parse token .data env source) s)
        (run rounds (calls + 1) (.parse token' .data env source') s)
      rw [Run.run_parse hlist, Run.run_parse hlist']
      exact hform source source' s hsource hrule

/-! ### Draining -/

/-- What comes of draining a text: the forms that are read, each with the number of characters left
behind it, and the fault that it ends with, if any, with the number of characters left then. -/
structure DrainLog where
  forms : List (Value × Nat)
  fault : Option Fault
  left : Nat
  deriving DecidableEq

/-- What draining the text results in. -/
def DrainLog.result (log : DrainLog) : Except Fault (List Value) :=
  match log.fault with
  | none => .ok (log.forms.map Prod.fst)
  | some f => .error f

/-- Reads the forms of a text, `fuel` of them at most, after those of a log, which are given from
the last one. -/
def Run.logFrom (self : Recur) (mode : Mode) (env : FrameId) :
    (fuel : Nat) → (forms : List (Value × Nat)) → Source → Run DrainLog
  | 0, forms, source => return ⟨forms.reverse, some .unexpectedEnd, source.length⟩
  | fuel + 1, forms, source =>
    if source.skip.isEmpty then return ⟨forms.reverse, none, 0⟩
    else do
      match ← self.form mode env source.skip with
      | (.ok v, rest) => logFrom self mode env fuel ((v, rest.length) :: forms) rest
      | (.error f, rest) => return ⟨forms.reverse, some f, rest.length⟩

/-- Reads the forms of a text. -/
def Run.drainLog (self : Recur) (mode : Mode) (env : FrameId) (source : Source) : Run DrainLog :=
  logFrom self mode env (source.length + 1) [] source

/-- A reading, with the number of the characters that are left. -/
def Reading.measured {α : Type} (m : Reading α) (source : Source) : Run (Except Fault α × Nat) := do
  let (r, rest) ← m source
  return (r, rest.length)

section Draining

variable {self : Recur} {mode : Mode} {env : FrameId} {source rest : Source} {s t : Store}

theorem logFrom_nil (fuel : Nat) (forms : List (Value × Nat)) (h : source.skip = []) :
    Run.logFrom self mode env (fuel + 1) forms source s = (.ok ⟨forms.reverse, none, 0⟩, s) := by
  rw [Run.logFrom, h]
  rfl

theorem logFrom_apply (fuel : Nat) (forms : List (Value × Nat)) (h : source.skip ≠ []) :
    Run.logFrom self mode env (fuel + 1) forms source s =
      match self.form mode env source.skip s with
      | (.ok (.ok v, rest), t) =>
        Run.logFrom self mode env fuel ((v, rest.length) :: forms) rest t
      | (.ok (.error f, rest), t) => (.ok ⟨forms.reverse, some f, rest.length⟩, t)
      | (.error e, t) => (.error e, t) := by
  rw [Run.logFrom, if_neg (mt List.isEmpty_iff.mp h), Run.bind_apply]
  rcases self.form mode env source.skip s with ⟨e | ⟨f | v, rest⟩, t⟩ <;> rfl

/-- A log tells how draining a text ends. -/
theorem measured_drainFrom (fuel : Nat) (forms : List (Value × Nat)) :
    (Run.drainFrom self mode env fuel (forms.map Prod.fst)).measured source s =
      (Run.logFrom self mode env fuel forms source >>= fun log =>
        pure (log.result, log.left)) s := by
  induction fuel generalizing forms source s with
  | zero => rfl
  | succ fuel ih =>
    by_cases hne : source.skip = []
    · rw [Reading.measured, Run.bind_apply_ok (drainFrom_nil self mode fuel _ hne),
        Run.bind_apply_ok (logFrom_nil fuel forms hne)]
      simp [DrainLog.result]
    · have hlog := @logFrom_apply self mode env source s fuel forms hne
      -- one form more: cut off, refused or read, both loops end or go on with it
      rcases hx : self.form mode env source.skip s with ⟨e | ⟨f | v, rest⟩, t⟩ <;> rw [hx] at hlog
      · have hdrain : Run.drainFrom self mode env (fuel + 1) (forms.map Prod.fst) source s =
            (.error e, t) := by
          rw [drainFrom_succ, if_neg (mt List.isEmpty_iff.mp hne)]
          exact Reading.bind_apply_stop hx
        rw [Reading.measured, Run.bind_apply_error hdrain, Run.bind_apply_error hlog]
      · have hdrain : Run.drainFrom self mode env (fuel + 1) (forms.map Prod.fst) source s =
            (.ok (.error f, rest), t) := by
          rw [drainFrom_succ, if_neg (mt List.isEmpty_iff.mp hne)]
          exact Reading.bind_apply_fault hx
        rw [Reading.measured, Run.bind_apply_ok hdrain, Run.bind_apply_ok hlog]
        rfl
      · have hdrain := drainFrom_cons self mode fuel (forms.map Prod.fst) hne hx
        rw [Reading.measured, Run.bind_apply, Run.bind_apply, hdrain, hlog, ← Run.bind_apply,
          ← Run.bind_apply]
        exact ih ((v, rest.length) :: forms)

theorem measured_drain :
    (Run.drain self mode env).measured source s =
      (Run.drainLog self mode env source >>= fun log => pure (log.result, log.left)) s := by
  have hlog := @measured_drainFrom self mode env source s (source.length + 1) []
  rw [Reading.measured] at hlog ⊢
  exact hlog

theorem logFrom_inStep (h : self.InStep env) (fuel : Nat) (forms : List (Value × Nat))
    {source' : Source} (hsource : source.Recased .outside source')
    (hrule : (s.symbols env).caseRule = .upper) :
    Run.logFrom self .data env fuel forms source' s =
      Run.logFrom self .data env fuel forms source s := by
  induction fuel generalizing forms source source' s with
  | zero => rw [Run.logFrom, Run.logFrom, hsource.length_eq]
  | succ fuel ih =>
    have hskip := hsource.skip
    by_cases hne : source.skip = []
    · rw [logFrom_nil fuel forms hne, logFrom_nil fuel forms (hskip.nil_iff.mpr hne)]
    · have hne' : source'.skip ≠ [] := mt hskip.nil_iff.mp hne
      -- the rests are recased too, and as long as each other: so are all later positions
      have hend := form_inStep h source.skip source'.skip s hskip hrule
      rw [logFrom_apply fuel forms hne, logFrom_apply fuel forms hne']
      generalize self.form .data env source.skip s = x at hend
      generalize self.form .data env source'.skip s = x' at hend
      cases hend with
      | stopped e t => rfl
      | ended r hrest hrule =>
        cases r with
        | error f => simp only [hrest.length_eq]
        | ok v =>
          simp only [hrest.length_eq]
          exact ih _ hrest hrule

end Draining

/-! ### Main result -/

/-- Where names are folded to upper case, draining a text of data gives the same forms, ends in the
same places and with the same fault, and leaves the same store, whatever the case of letters that do
not stand between quote marks. -/
theorem case_is_ignored {source source' : Source} (hsource : source.Recased .outside source')
    {env : FrameId} {s : Store} (hrule : (s.symbols env).caseRule = .upper) (a : Allowance) :
    source'.length = source.length ∧
      Run.drainLog a.run .data env source' s = Run.drainLog a.run .data env source s ∧
      (Run.drain a.run .data env).measured source' s =
        (Run.drain a.run .data env).measured source s := by
  have hlength := hsource.length_eq
  have hlog : Run.drainLog a.run .data env source' s = Run.drainLog a.run .data env source s := by
    rw [Run.drainLog, Run.drainLog, hlength]
    exact logFrom_inStep (run_inStep env a.rounds a.calls) _ [] hsource hrule
  refine ⟨hlength, hlog, ?_⟩
  rw [measured_drain, measured_drain, Run.bind_apply, Run.bind_apply, hlog]

/-- Two spellings of a list, of a symbol and of what closes no list.  The text between quote marks
is the same in both. -/
theorem case_is_ignored_of_list :
    let s := ((Store.empty .empty).addRealm .upper 9).2
    let source : Source := "(foo \"a\\\"Bc\" 1e3 'nil ; Q\n) x)".toList
    let source' : Source := "(FoO \"a\\\"Bc\" 1E3 'Nil ; q\n) X)".toList
    let a : Allowance := ⟨9, 0⟩
    let quoted : Value := .cons 2 (.symbol ⟨2, 0, "QUOTE", some (.form .quote)⟩) (.cons 1 .nil .nil)
    let list : Value := .cons 6 (.symbol ⟨0, 0, "FOO", none⟩)
      (.cons 5 (.text 0 "a\"Bc") (.cons 4 (.number 1000) (.cons 3 quoted .nil)))
    source.Recased .outside source' ∧ (s.symbols 0).caseRule = .upper ∧
      (Run.drainLog a.run .data 0 source s).1 =
        .ok ⟨[(list, 3), (.symbol ⟨3, 0, "X", none⟩, 1)], some .extraneousClose, 0⟩ ∧
      source'.length = source.length ∧
      Run.drainLog a.run .data 0 source' s = Run.drainLog a.run .data 0 source s ∧
      (Run.drain a.run .data 0).measured source' s =
        (Run.drain a.run .data 0).measured source s := by
  intro s source source' a quoted list
  have hsource : source.Recased .outside source' := by decide +kernel
  have hrule : (s.symbols 0).caseRule = .upper := rfl
  exact ⟨hsource, hrule, by decide +kernel, case_is_ignored hsource hrule a⟩

end PocketLisp
