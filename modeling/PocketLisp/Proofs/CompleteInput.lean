/-
PocketLisp/Proofs/CompleteInput.lean

Whether input is complete, counted and read.

Before a line is evaluated, its tokens are counted: every opening parenthesis
has to be closed.  The reader follows the grammar instead.  The count says the
same about the text behind a part that is complete as about the whole text
(`balanced_of_reads`), so a text that can be read to its end is complete.  The
converse fails where a quote mark has nothing behind it: the count passes over
it, and the reader waits for a form.

Main results: what can be read to its end is complete (`isComplete_of_drain`);
reading what is complete never meets the end of the text too early, unless the
last token is a quote mark (`drain_of_isComplete`, `isComplete_of_quote_mark`).
-/
import PocketLisp.Console
import PocketLisp.Proofs.Offence
import PocketLisp.Proofs.RunLockstep

namespace PocketLisp

/-! ### All tokens of a text -/

namespace Token

variable {source rest : Source}

/-- The tokens found before stay in front. -/
theorem collect_append (collected : List Token) (fuel : Nat) (source : Source) :
    collect collected fuel source =
      (collected.reverse ++ (collect [] fuel source).1, (collect [] fuel source).2) := by
  induction fuel generalizing collected source with
  | zero => simp [collect]
  | succ fuel ih =>
    rcases hnext : next source with ⟨f | token, rest⟩
    · simp [collect, hnext]
    · cases token with
      | endOfInput => simp [collect, hnext]
      | _ =>
        simp only [collect, hnext]
        rw [ih (_ :: collected), ih [_]]
        simp

/-- As every token takes a character, it makes no difference how many more may be taken. -/
theorem collect_fuel (collected : List Token) {fuel fuel' : Nat} (h : source.length < fuel)
    (h' : source.length < fuel') :
    collect collected fuel source = collect collected fuel' source := by
  induction fuel generalizing collected source fuel' with
  | zero => exact absurd h (Nat.not_lt_zero _)
  | succ fuel ih =>
    obtain ⟨fuel', rfl⟩ := Nat.exists_eq_add_one.mpr (Nat.zero_lt_of_lt h')
    rcases hnext : next source with ⟨f | token, rest⟩
    · simp [collect, hnext]
    · cases token with
      | endOfInput => simp [collect, hnext]
      | _ =>
        have hlt := length_next_lt hnext nofun
        simp only [collect, hnext]
        exact ih _ (by omega) (by omega)

/-- The tokens of a text are its first token and those behind it. -/
theorem all_of_next {token : Token} (h : next source = (.ok token, rest))
    (hend : token ≠ .endOfInput) : all source = (token :: (all rest).1, (all rest).2) := by
  have hlt := length_next_lt h hend
  have hstep : all source = collect [token] source.length rest := by
    rw [all, collect, h]
    cases token with
    | endOfInput => exact absurd rfl hend
    | _ => rfl
  rw [hstep, collect_append, collect_fuel [] hlt (Nat.lt_add_one _)]
  rfl

theorem all_of_end (h : next source = (.ok .endOfInput, rest)) : all source = ([], none, rest) := by
  rw [all, collect, h]
  rfl

theorem all_of_error {f : Fault} (h : next source = (.error f, rest)) :
    all source = ([], some f, rest) := by
  rw [all, collect, h]
  rfl

/-- The last token behind the first one is the last of all. -/
theorem getLast?_of_next {token last : Token} (h : next source = (.ok token, rest))
    (hend : token ≠ .endOfInput) (hlast : (all rest).1.getLast? = some last) :
    (all source).1.getLast? = some last := by
  rw [all_of_next h hend, List.getLast?_cons, hlast]
  rfl

/-- An atom is a number or a symbol. -/
theorem ofAtom_ne_endOfInput (cs : List Char) : ofAtom cs ≠ .endOfInput := by
  rw [ofAtom]
  split <;> nofun

/-- Any character starts a token, or a text that is not closed. -/
theorem eq_nil_of_take_end (h : take source = (.ok .endOfInput, rest)) : source = [] := by
  fun_cases take source with
  | case1 => rfl
  | case2 | case3 | case4 => cases h
  | case5 cs content rest' htext =>
    simp only [take, htext] at h
    cases h
  | case6 cs htext =>
    simp only [take, htext] at h
    cases h
  | case7 c cs hleft hright hquote hdouble =>
    rw [take.eq_6 c cs hleft hright hquote hdouble] at h
    exact absurd (Except.ok.inj (congrArg Prod.fst h)) (ofAtom_ne_endOfInput _)

/-- The tokens of a text do not depend on what is skipped in front of them. -/
theorem all_skip (source : Source) : all source.skip = all source := by
  have hskip := next_skip source
  rcases hnext : next source with ⟨f | token, rest⟩ <;> rw [hnext] at hskip
  · rw [all_of_error hnext, all_of_error hskip]
  · by_cases hend : token = .endOfInput
    · subst hend
      rw [all_of_end hnext, all_of_end hskip]
    · rw [all_of_next hnext hend, all_of_next hskip hend]

end Token

/-! ### Counting parentheses -/

/-- Whether a text that follows so many open lists ends outside of every list and every quoted
text. -/
def Source.balanced (opened : Nat) (source : Source) : Bool :=
  match Token.all source with
  | (tokens, none, _) => tokens.foldl Token.openAfter opened == 0
  | (_, some _, _) => false

theorem isComplete_eq_balanced (content : String) :
    isComplete content = Source.balanced 0 content.toList := rfl

namespace Source

variable {source rest : Source} {opened : Nat}

/-- A text that ends at once is balanced if no list is open. -/
theorem balanced_of_end (h : Token.next source = (.ok .endOfInput, rest)) :
    source.balanced opened = (opened == 0) := by
  rw [balanced, Token.all_of_end h]
  rfl

theorem balanced_of_error {f : Fault} (h : Token.next source = (.error f, rest)) :
    source.balanced opened = false := by
  rw [balanced, Token.all_of_error h]

/-- The count takes one token and goes on behind it. -/
theorem balanced_of_next {token : Token} (h : Token.next source = (.ok token, rest))
    (hend : token ≠ .endOfInput) :
    source.balanced opened = rest.balanced (token.openAfter opened) := by
  rw [balanced, balanced, Token.all_of_next h hend]
  rcases Token.all rest with ⟨tokens, - | f, left⟩ <;> rfl

theorem balanced_skip (source : Source) : source.skip.balanced opened = source.balanced opened := by
  rw [balanced, balanced, Token.all_skip]

/-- A complete part changes the count by the parentheses that it closes and does not open. -/
theorem balanced_of_reads {p : Part} {d : Datum p} (h : Reads source d rest) :
    source.balanced (opened + p.closes) = rest.balanced opened := by
  induction h generalizing opened with
  | number h | text h | symbol h | none h => exact balanced_of_next h nofun
  | quote h _ ih | list h _ ih => exact (balanced_of_next h nofun).trans ih
  | more _ _ ih ih' => exact ih.trans ih'

end Source

/-! ### Reading to the end -/

section Draining

variable {env : FrameId} {rounds calls : Nat} {source rest : Source} {s t : Store}

/-- A text is at its end where nothing is left behind blanks and comments. -/
theorem Token.next_of_skip_nil (h : source.skip = []) :
    Token.next source = (.ok .endOfInput, []) := by
  rw [Token.next, h]
  rfl

/-- What is read to its end is balanced. -/
theorem balanced_of_drainFrom {fuel : Nat} {forms vs : List Value}
    (h : Run.drainFrom (run rounds calls) .data env fuel forms source s =
      (.ok (.ok vs, rest), t)) :
    source.balanced 0 = true := by
  induction fuel generalizing forms source s with
  | zero => cases h
  | succ fuel ih =>
    by_cases hempty : source.skip = []
    · exact Source.balanced_of_end (Token.next_of_skip_nil hempty)
    · rw [drainFrom_succ, if_neg (mt List.isEmpty_iff.mp hempty)] at h
      obtain ⟨v, middle, u, hform, hothers⟩ := Reading.bind_eq_ok h
      obtain ⟨d, hd, -, -⟩ := reads_of_form hform
      rw [← Source.balanced_skip]
      exact (Source.balanced_of_reads hd).trans (ih hothers)

/-- A form that is refused is refused also if more calls may be active. -/
theorem form_refused_of_le {mode : Mode} {calls' : Nat} {f : Fault}
    (h : (run rounds calls).form mode env source s = (.ok (.error f, rest), t))
    (hle : calls ≤ calls') :
    ((run rounds calls').form mode env source s).1 = .ok (.error f, rest) := by
  have hforms := Lockstep.nextForm (run_lockstep_of_le (s := s) (Nat.le_refl rounds) hle) mode env
    source
  rcases hforms.eq_of_store with hcut | hsame
  · rw [h] at hcut
    cases hcut
  · rw [hsame, h]

/-- Where a form is refused, this is for the first offending token. -/
theorem offence?_of_refused {f : Fault}
    (h : (run rounds calls).form .data env source s = (.ok (.error f, rest), t)) :
    offence? (s.room env) (s.limit env) 0 true source = some (f, rest) := by
  -- the reader follows the walk if there is a call for every character, so let there be as many
  have hmore := form_refused_of_le h (Nat.le_max_left calls (source.length + 1))
  have hfollows : ReadsOrOffends (run rounds (max calls (source.length + 1))) env source s .form :=
    form_follows (Nat.le_max_right calls (source.length + 1))
  rcases hfollows with ⟨d, rest', hd, hroom⟩ | ⟨f', rest', ⟨t', hrefused⟩, hoffence⟩
  · have hle := hd.calls_le
    have hread : (run rounds (max calls (source.length + 1))).form .data env source s = _ :=
      hd.dataRead (by omega) hroom
    rw [hread] at hmore
    cases hmore
  · rw [hrefused] at hmore
    cases hmore
    have hwalk := hoffence 0
    rwa [Part.closes, Nat.zero_add, Nat.zero_add] at hwalk

/-- A balanced text has a token unless all of it is skipped. -/
theorem all_ne_nil_of_balanced (h : source.balanced 0 = true) (hne : source.skip ≠ []) :
    (Token.all source).1 ≠ [] := by
  rcases hnext : Token.next source with ⟨f | token, rest⟩
  · rw [Source.balanced_of_error hnext] at h
    cases h
  · by_cases hend : token = .endOfInput
    · subst hend
      exact absurd (Token.eq_nil_of_take_end hnext) hne
    · rw [Token.all_of_next hnext hend]
      exact List.cons_ne_nil _ _

/-- Where the walk over a balanced text meets the end, the last token is a quote mark; no form was
due in front of the first token, or there is a token. -/
theorem getLast?_of_offence {room limit opened : Nat} {due : Bool}
    (h : offence? room limit opened due source = some (.unexpectedEnd, rest))
    (hbalanced : source.balanced opened = true) (hopened : due = false → 0 < opened)
    (hsome : due = true → (Token.all source).1 ≠ []) :
    (Token.all source).1.getLast? = some .quote := by
  fun_induction offence? room limit opened due source with
  | case1 opened due source f rest hnext =>
    rw [Source.balanced_of_error hnext] at hbalanced
    cases hbalanced
  | case2 opened due source rest hnext =>
    rw [Source.balanced_of_end hnext, beq_iff_eq] at hbalanced
    -- where no form is due, a list is open; where one is due, there was a token
    cases due with
    | false => exact absurd hbalanced (Nat.ne_of_gt (hopened rfl))
    | true => exact absurd (congrArg Prod.fst (Token.all_of_end hnext)) (hsome rfl)
  | case5 opened due source rest hnext _ hopen ih =>
    rw [Source.balanced_of_next hnext nofun] at hbalanced
    exact Token.getLast?_of_next hnext nofun (ih h hbalanced (fun _ => by omega) nofun)
  | case6 opened due source rest hnext _ ih =>
    rw [Source.balanced_of_next hnext nofun] at hbalanced
    exact Token.getLast?_of_next hnext nofun (ih h hbalanced (fun _ => Nat.succ_pos _) nofun)
  | case8 opened due source rest hnext ih =>
    rw [Source.balanced_of_next hnext nofun] at hbalanced
    -- behind a quote mark a form is due, and the quote mark may be the last token
    by_cases hnone : (Token.all rest).1 = []
    · rw [Token.all_of_next hnext nofun, hnone]
      rfl
    · exact Token.getLast?_of_next hnext nofun (ih h hbalanced nofun fun _ => hnone)
  | case10 opened due source _ rest hnext hopen ih
  | case12 opened due source _ rest hnext hopen ih
  | case14 opened due source _ rest hnext hopen ih =>
    rw [Source.balanced_of_next hnext nofun] at hbalanced
    have hpos : false = false → 0 < opened := fun _ => Nat.pos_of_ne_zero hopen
    exact Token.getLast?_of_next hnext nofun (ih h hbalanced hpos nofun)
  | _ => cases h

/-- Behind a complete part, the last token is that of the whole text, if there is one. -/
theorem Reads.getLast?_all {p : Part} {d : Datum p} {last : Token} (h : Reads source d rest)
    (hlast : (Token.all rest).1.getLast? = some last) :
    (Token.all source).1.getLast? = some last := by
  induction h with
  | number h | text h | symbol h | none h => exact Token.getLast?_of_next h nofun hlast
  | quote h _ ih | list h _ ih => exact Token.getLast?_of_next h nofun (ih hlast)
  | more _ _ ih ih' => exact ih (ih' hlast)

/-- Reading to the end of a balanced text meets the end too early only behind a quote mark. -/
theorem getLast?_of_drainFrom {fuel : Nat} {forms : List Value} (hfuel : source.length < fuel)
    (h : Run.drainFrom (run rounds calls) .data env fuel forms source s =
      (.ok (.error .unexpectedEnd, rest), t)) (hbalanced : source.balanced 0 = true) :
    (Token.all source).1.getLast? = some .quote := by
  -- on the fuel: the fault is in the first form, or behind it
  induction fuel generalizing forms source s with
  | zero => exact absurd hfuel (Nat.not_lt_zero _)
  | succ fuel ih =>
    -- where no form is left, none is missing
    by_cases hempty : source.skip = []
    · rw [drainFrom_nil _ _ fuel forms hempty] at h
      cases h
    have hsome := all_ne_nil_of_balanced hbalanced hempty
    rw [drainFrom_succ, if_neg (mt List.isEmpty_iff.mp hempty)] at h
    rw [← Source.balanced_skip] at hbalanced
    rw [← Token.all_skip] at hsome ⊢
    rcases hform : (run rounds calls).form .data env source.skip s with ⟨e | ⟨f | v, middle⟩, u⟩
    · rw [Reading.bind_apply_stop hform] at h
      cases h
    · -- the first form is refused
      rw [Reading.bind_apply_fault hform] at h
      cases h
      exact getLast?_of_offence (offence?_of_refused hform) hbalanced nofun fun _ => hsome
    · rw [Reading.bind_apply_ok hform] at h
      -- it is read, and parentheses are balanced behind it as well
      obtain ⟨d, hd, -, -⟩ := reads_of_form hform
      have hlt := hd.length_lt
      have hle := Source.length_skip_le source
      exact hd.getLast?_all (ih (by omega) h ((Source.balanced_of_reads hd).symm.trans hbalanced))

end Draining

/-! ### What is complete -/

section Complete

variable {content : String} {env : FrameId} {rounds calls : Nat} {s t : Store} {rest : Source}

/-- A text whose forms can all be read is complete. -/
theorem isComplete_of_drain {forms : List Value}
    (h : Run.drain (run rounds calls) .data env content.toList s = (.ok (.ok forms, rest), t)) :
    isComplete content = true :=
  (isComplete_eq_balanced content).trans (balanced_of_drainFrom h)

/-- Parentheses in a quoted text and in a comment open and close nothing. -/
theorem isComplete_of_drain_quoted :
    let s := ((Store.empty .empty).addRealm .preserve 9).2
    let content := "\")\" ; (\n'x"
    let quoted := Value.cons 2 (.symbol ⟨1, 0, "quote", some (.form .quote)⟩)
      (.cons 1 (.symbol ⟨0, 0, "x", none⟩) .nil)
    (Run.drain (run 0 9) .data 0 content.toList s).1 = .ok (.ok [.text 0 ")", quoted], []) ∧
      isComplete content = true := by
  intro s content quoted
  have hresult : (Run.drain (run 0 9) .data 0 content.toList s).1 =
      .ok (.ok [.text 0 ")", quoted], []) := by
    decide +kernel
  exact ⟨hresult, isComplete_of_drain (Prod.ext hresult rfl)⟩

/-- No form of a text that is complete lacks its end, unless the last token of the text is a quote
mark: reading may fail, but not because the text ends too early. -/
theorem drain_of_isComplete (hcomplete : isComplete content = true)
    (hquote : (Token.all content.toList).1.getLast? ≠ some .quote) (rounds calls : Nat)
    (env : FrameId) (s : Store) :
    ∀ rest t, Run.drain (run rounds calls) .data env content.toList s ≠
      (.ok (.error .unexpectedEnd, rest), t) := by
  intro rest t h
  rw [isComplete_eq_balanced] at hcomplete
  exact hquote (getLast?_of_drainFrom (Nat.lt_add_one _) h hcomplete)

/-- A text that is complete, with a list in it for which there is no room. -/
theorem drain_of_isComplete_deep :
    let s := ((Store.empty .empty).addRealm .preserve 1).2
    let content := "'a (b (c))"
    isComplete content = true ∧ (Token.all content.toList).1.getLast? ≠ some .quote ∧
      (Run.drain (run 9 9) .data 0 content.toList s).1 =
        .ok (.error (.stackExhausted 1), "c))".toList) ∧
      ∀ rest t, Run.drain (run 9 9) .data 0 content.toList s ≠
        (.ok (.error .unexpectedEnd, rest), t) := by
  intro s content
  have hcomplete : isComplete content = true := by decide +kernel
  have hquote : (Token.all content.toList).1.getLast? ≠ some .quote := by decide +kernel
  have hresult : (Run.drain (run 9 9) .data 0 content.toList s).1 =
      .ok (.error (.stackExhausted 1), "c))".toList) := by
    decide +kernel
  exact ⟨hcomplete, hquote, hresult, drain_of_isComplete hcomplete hquote 9 9 0 s⟩

/-- A quote mark with nothing behind it is complete, though the text ends where a form has to
start. -/
theorem isComplete_of_quote_mark :
    let s := ((Store.empty .empty).addRealm .preserve 9).2
    isComplete "'" = true ∧
      (Run.drain (run 9 9) .data 0 "'".toList s).1 = .ok (.error .unexpectedEnd, []) := by
  decide +kernel

end Complete

end PocketLisp
