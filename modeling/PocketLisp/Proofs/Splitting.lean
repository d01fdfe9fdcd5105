/-
PocketLisp/Proofs/Splitting.lean

Texts split at the end of a line.

A line break ends every word and every comment, so what is read from the
front of a text does not depend on what follows behind a line break
(`Reading.Extended`).  The one exception is a text that ends too early: there the
reading fails with `unexpectedEnd`, and with more text it may go on.

Main result: `evaluate_append_line`.  Evaluating a text and another one behind
a line break does what evaluating the two in turn does, if the first succeeds;
if the first fails, and not because the text ends too early, it fails in the
same way and leaves the second one alone.
-/
import PocketLisp.Engine
import PocketLisp.Proofs.Forward
import PocketLisp.Proofs.Grammar

namespace PocketLisp

variable {α β : Type}

/-! ### Tokens in front of a line break -/

/-- A line break ends a comment; what is skipped in front of it does not depend on what follows. -/
theorem Source.skipFrom_append_line (inComment : Bool) (cs more : Source) :
    skipFrom inComment (cs ++ '\n' :: more) =
      if skipFrom inComment cs = [] then skip more
      else skipFrom inComment cs ++ '\n' :: more := by
  induction cs generalizing inComment with
  | nil => cases inComment <;> rfl
  | cons c cs ih =>
    simp only [List.cons_append, skipFrom]
    split
    · exact ih _
    · split
      · exact ih _
      · split
        · exact ih _
        · simp

theorem Source.skip_append_line (cs more : Source) :
    skip (cs ++ '\n' :: more) = if skip cs = [] then skip more else skip cs ++ '\n' :: more :=
  skipFrom_append_line false cs more

namespace Token

/-- A character that escapes neither the end nor another character escapes nothing. -/
theorem ne_escape {c : Char} {cs : Source} (hend : c = '\\' → cs = [] → False)
    (hescape : ∀ d ds, c = '\\' → cs = d :: ds → False) : c ≠ '\\' := by
  intro hc
  cases cs with
  | nil => exact hend hc rfl
  | cons d ds => exact hescape d ds hc rfl

/-- A text that is closed is read up to its closing quote. -/
theorem takeText_append {collected cs content rest : List Char} (more : Source)
    (h : takeText collected cs = some (content, rest)) :
    takeText collected (cs ++ more) = some (content, rest ++ more) := by
  fun_induction takeText collected cs with
  | case1 | case3 => cases h
  | case2 collected cs =>
    cases h
    rfl
  | case4 collected c cs ih => exact ih h
  | case5 collected c cs hquote hend hescape ih =>
    rw [List.cons_append, takeText_other hquote (ne_escape hend hescape)]
    exact ih h

/-- A word ends at a delimiter, or in front of the line break. -/
theorem boundary_dropWhile (cs more : Source) :
    Boundary (cs.dropWhile (fun c => !isDelimiter c) ++ '\n' :: more) := by
  have hhead := List.head?_dropWhile_not (fun c => !isDelimiter c) cs
  rcases h : cs.dropWhile (fun c => !isDelimiter c) with - | ⟨d, ds⟩
  · exact boundary_cons (by decide) more
  · rw [h] at hhead
    exact boundary_cons (by simpa using hhead) _

/-- A token that a text starts with, behind blanks and comments, is taken from a longer text as
well. -/
theorem take_append_line {cs rest : Source} {token : Token} (more : Source)
    (h : take cs = (.ok token, rest)) (ht : token ≠ .endOfInput) :
    take (cs ++ '\n' :: more) = (.ok token, rest ++ '\n' :: more) := by
  fun_cases take cs with
  | case1 =>
    cases h
    exact absurd rfl ht
  | case2 cs | case3 cs | case4 cs =>
    cases h
    rfl
  | case5 cs content rest' htake =>
    simp only [take, htake, Prod.mk.injEq] at h
    obtain ⟨htoken, rfl⟩ := h
    simp only [List.cons_append, take, takeText_append _ htake, htoken]
  | case6 cs htake => simp [take, htake] at h
  | case7 c cs hleft hright hquote hdouble _ =>
    rw [take.eq_6 c cs hleft hright hquote hdouble] at h
    rw [List.cons_append, take.eq_6 c _ hleft hright hquote hdouble, ← List.cons_append]
    obtain ⟨htoken, hrest⟩ := Prod.mk.inj h
    have hword : ∀ d ∈ (c :: cs).takeWhile (fun c => !isDelimiter c), isDelimiter d = false :=
      fun d hd => by simpa using List.all_eq_true.mp List.all_takeWhile d hd
    -- the word ends in front of the line feed at the latest, with or without the line
    have hsplit : c :: cs ++ '\n' :: more =
        (c :: cs).takeWhile (fun c => !isDelimiter c) ++
          ((c :: cs).dropWhile (fun c => !isDelimiter c) ++ '\n' :: more) := by
      rw [← List.append_assoc, List.takeWhile_append_dropWhile]
    rw [← htoken, ← hrest, hsplit, takeWhile_word hword (boundary_dropWhile _ more),
      dropWhile_word hword (boundary_dropWhile _ more)]

/-- A token in front of a line break does not depend on what follows. -/
theorem next_append_line {cs rest : Source} {token : Token} (more : Source)
    (h : next cs = (.ok token, rest)) (ht : token ≠ .endOfInput) :
    next (cs ++ '\n' :: more) = (.ok token, rest ++ '\n' :: more) := by
  have hskip : cs.skip ≠ [] := by
    intro hnil
    rw [next, hnil] at h
    cases h
    exact ht rfl
  rw [next, Source.skip_append_line, if_neg hskip]
  exact take_append_line more h ht

/-- What is no token is a text that is not closed. -/
theorem next_error {cs rest : Source} {f : Fault} (h : next cs = (.error f, rest)) :
    f = .unexpectedEnd := by
  rw [next] at h
  generalize cs.skip = ds at h
  fun_cases take ds with
  | case1 | case2 ds | case3 ds | case4 ds => cases h
  | case5 ds content rest' htake => simp [take, htake] at h
  | case6 ds htake =>
    simp only [take, htake, Prod.mk.injEq, Except.error.injEq] at h
    exact h.1.symm
  | case7 c ds hleft hright hquote hdouble _ =>
    rw [take.eq_6 c ds hleft hright hquote hdouble] at h
    cases h

end Token

/-! ### Readings in front of more text -/

namespace Reading

/-- A reading ends because the text ends too early, or for want of an allowance. -/
def Cut : Except Stop (Except Fault α × Source) → Prop
  | .ok (.ok _, _) => False
  | .ok (.error f, _) => f = .unexpectedEnd
  | .error e => e = .unfinished

/-- The reading of a longer text ends as the reading of its front does, unless that is cut. -/
def Extended (more : Source) (front whole : Except Stop (Except Fault α × Source) × Store) : Prop :=
  Cut front.1 ∨ whole = (front.1.map fun p => (p.1, p.2 ++ more), front.2)

namespace Extended

variable {more source : Source} {s : Store} {m m' : Reading α} {k k' : α → Reading β}

protected theorem pure (a : α) (source : Source) (s : Store) :
    Extended more ((pure a : Reading α) source s) ((pure a : Reading α) (source ++ more) s) :=
  .inr rfl

protected theorem throw (f : Fault) (source : Source) (s : Store) :
    Extended more ((throw f : Reading α) source s) ((throw f : Reading α) (source ++ more) s) :=
  .inr rfl

protected theorem ofRun (body : Run α) (source : Source) (s : Store) :
    Extended more (Reading.ofRun body source s) (Reading.ofRun body (source ++ more) s) := by
  rw [ofRun_apply, ofRun_apply]
  rcases body s with ⟨(f | _) | a, t⟩ <;> exact .inr rfl

protected theorem bind (hm : Extended more (m source s) (m' (source ++ more) s))
    (hk : ∀ a rest t, Extended more (k a rest t) (k' a (rest ++ more) t)) :
    Extended more ((m >>= k) source s) ((m' >>= k') (source ++ more) s) := by
  -- stopped, refused or read: a cut first half cuts the whole
  rcases h : m source s with ⟨e | ⟨f | a, rest⟩, t⟩
  · rw [h] at hm
    rw [bind_apply_stop h]
    rcases hm with hcut | hm
    · exact .inl hcut
    · rw [bind_apply_stop hm]
      exact .inr rfl
  · rw [h] at hm
    rw [bind_apply_fault h]
    rcases hm with hcut | hm
    · exact .inl hcut
    · rw [bind_apply_fault hm]
      exact .inr rfl
  · rw [h] at hm
    rw [bind_apply_ok h]
    rcases hm with hcut | hm
    · exact hcut.elim
    · rw [bind_apply_ok hm]
      exact hk a rest t

/-- A token is the same in front of more lines; where there is none, the reading has to be cut. -/
theorem token_bind {line : Source} {k k' : Token → Reading β}
    (hend : ∀ rest, Cut (k .endOfInput rest s).1)
    (hk : ∀ token, token ≠ .endOfInput → ∀ rest,
      Extended ('\n' :: line) (k token rest s) (k' token (rest ++ '\n' :: line) s)) :
    Extended ('\n' :: line) ((Reading.token >>= k) source s)
      ((Reading.token >>= k') (source ++ '\n' :: line) s) := by
  have htoken : ∀ cs : Source, Reading.token cs s = (.ok (Token.next cs), s) := fun _ => rfl
  rcases h : Token.next source with ⟨f | token, rest⟩
  · rw [bind_apply_fault ((htoken source).trans (by rw [h]))]
    exact .inl (Token.next_error h)
  · rw [bind_apply_ok ((htoken source).trans (by rw [h]))]
    -- the end of the input is where the line may change the reading
    by_cases ht : token = .endOfInput
    · rw [ht]
      exact .inl (hend rest)
    · rw [bind_apply_ok ((htoken _).trans (by rw [Token.next_append_line line h ht]))]
      exact hk token ht rest

end Extended

/-- A reading does not put anything back. -/
def Advances (m : Reading α) : Prop :=
  ∀ (source : Source) (s : Store) (x : Except Fault α) (rest : Source) (t : Store),
    m source s = (.ok (x, rest), t) → rest.length ≤ source.length

theorem Forward.advances {m : Reading α} (h : Forward m) : Advances m := by
  intro source s x rest t hm
  have hrest := h source s
  rw [hm] at hrest
  exact List.IsSuffix.length_le hrest

end Reading

/-! ### The reader -/

open Reading

section Reader

variable {line : Source} {self : Recur} {mode : Mode} {global : FrameId}

/-- Reading a form whose first token has been taken does not depend on what follows on further
lines, and does not put anything back. -/
structure Recur.Settled (line : Source) (r : Recur) : Prop where
  extended : ∀ token mode global source s, Extended ('\n' :: line)
    (r.parse token mode global source s) (r.parse token mode global (source ++ '\n' :: line) s)
  cut : ∀ mode global source s, Cut (r.parse .endOfInput mode global source s).1
  advances : ∀ token mode global, Advances (r.parse token mode global)

variable (h : self.Settled line)
include h

theorem form_extended (mode : Mode) (global : FrameId) (source : Source) (s : Store) :
    Extended ('\n' :: line) (self.form mode global source s)
      (self.form mode global (source ++ '\n' :: line) s) :=
  Extended.token_bind (fun _ => h.cut _ _ _ _) fun _ _ _ => h.extended _ _ _ _ _

/-- The second reading may have the larger bound for the number of elements. -/
theorem elements_extended {bound bound' : Source} (hbound : bound.length ≤ bound'.length)
    (items : Array Value) (source : Source) (s : Store) :
    Extended ('\n' :: line) (Run.Parsing.elements self mode global bound items source s)
      (Run.Parsing.elements self mode global bound' items (source ++ '\n' :: line) s) := by
  induction bound generalizing bound' items source s with
  | nil => exact .inl rfl
  | cons c bound ih =>
    obtain ⟨c', bound', rfl⟩ := List.exists_cons_of_length_pos (Nat.zero_lt_of_lt hbound)
    have hmore : ∀ token rest, Extended ('\n' :: line)
        ((self.parse token (mode.inside items) global >>= fun v =>
          Run.Parsing.elements self mode global bound (items.push v)) rest s)
        ((self.parse token (mode.inside items) global >>= fun v =>
          Run.Parsing.elements self mode global bound' (items.push v)) (rest ++ '\n' :: line) s) :=
      fun token rest => (h.extended _ _ _ _ _).bind fun v rest t =>
        ih (Nat.le_of_succ_le_succ hbound) (items.push v) rest t
    refine Extended.token_bind (fun _ => rfl) fun token ht rest => ?_
    cases token with
    | rightParen => exact Extended.pure _ _ _
    | endOfInput => exact absurd rfl ht
    | _ => exact hmore _ rest

theorem list_extended (source : Source) (s : Store) :
    Extended ('\n' :: line) (Run.Parsing.list self mode global source s)
      (Run.Parsing.list self mode global (source ++ '\n' :: line) s) := by
  have hget : ∀ source : Source, (MonadState.get : Reading Source) source s =
      (.ok (.ok source, source), s) := fun _ => rfl
  rw [Run.Parsing.list, bind_apply_ok (hget _), bind_apply_ok (hget _)]
  refine (elements_extended h (by simp) #[] source s).bind fun items rest t => ?_
  cases mode with
  | data => exact Extended.ofRun _ _ _
  | code => exact Extended.ofRun _ _ _

theorem parsing_extended (token : Token) (source : Source) (s : Store) :
    Extended ('\n' :: line) (Run.Parsing.form self token mode global source s)
      (Run.Parsing.form self token mode global (source ++ '\n' :: line) s) := by
  cases token with
  | endOfInput | rightParen => exact Extended.throw _ _ _
  | leftParen => exact list_extended h source s
  | quote => exact (form_extended h _ _ _ _).bind fun v rest t => Extended.ofRun _ _ _
  | number x => exact Extended.pure _ _ _
  | text content | symbol name => exact Extended.ofRun _ _ _

end Reader

/-- Nested steps make no difference: they are taken or refused whatever follows. -/
theorem run_settled (line : Source) (rounds calls : Nat) :
    Recur.Settled line (run rounds calls) := by
  induction calls with
  | zero =>
    exact ⟨fun _ _ _ _ _ => .inl rfl, fun _ _ _ _ => rfl,
      fun token mode global => (run_forward rounds 0 token mode global).advances⟩
  | succ calls ih =>
    refine ⟨fun token mode global source s => ?_, fun _ _ _ _ => rfl,
      fun token mode global => (run_forward rounds (calls + 1) token mode global).advances⟩
    -- the nested step of a list depends on the store alone
    by_cases ht : token = .leftParen
    · subst ht
      by_cases hroom : (s.level (s.realmOf global)).HasRoom
      · have hlist : Extended ('\n' :: line)
            (Run.Parsing.list (run rounds calls) mode global source (s.deepen global)) _ :=
          list_extended ih source (s.deepen global)
        simp only [Recur.parse, Run.run_parse_list hroom]
        rcases hlist with hcut | heq
        · exact .inl hcut
        · rw [heq]
          exact .inr rfl
      · simp only [Recur.parse, Run.run_parse_refused hroom]
        exact .inr rfl
    · simp only [Recur.parse, Run.run_parse ht]
      exact parsing_extended ih token source s

/-! ### Whole texts -/

/-- How the evaluation of a whole text ends, given how the evaluation of its front ends: it goes on
behind the front or fails with it, unless the front ends too early or there is no allowance left. -/
def GoesOn (next : Value → Run Value) : (front whole : Except Stop Value × Store) → Prop
  | (.ok v, t), whole => whole = next v t
  | (.error e, t), whole =>
    e = .fault .unexpectedEnd ∨ e = .unfinished ∨ whole = (.error e, t)

section Programs

variable {self : Recur} {global : FrameId} {source : Source} {s : Store}

/-- Where only blanks and comments are left, evaluation ends with the last result. -/
theorem evaluateFrom_blank (fuel : Nat) (result : Value) (h : source.skip = []) :
    Run.evaluateFrom self global (fuel + 1) result source s = (.ok result, s) := by
  simp only [Run.evaluateFrom, h]
  rfl

/-- Otherwise the next form is read and evaluated, and the result up to there is forgotten. -/
theorem evaluateFrom_next (fuel : Nat) (result : Value) (h : source.skip ≠ []) :
    Run.evaluateFrom self global (fuel + 1) result source s =
      (self.form .code global source.skip >>= fun p => Run.ofExcept p.1 >>= fun form =>
        self (.eval form global) >>= fun v => Run.evaluateFrom self global fuel v p.2) s := by
  simp only [Run.evaluateFrom, List.isEmpty_eq_false_iff.mpr h]
  rfl

/-- What comes of the next form, by what comes of reading it. -/
theorem evaluateFrom_step (fuel : Nat) (result : Value) (h : source.skip ≠ []) :
    Run.evaluateFrom self global (fuel + 1) result source s =
      match self.form .code global source.skip s with
      | (.error e, t) => (.error e, t)
      | (.ok (.error f, _), t) => (.error (.fault f), t)
      | (.ok (.ok form, rest), t) =>
        match self (.eval form global) t with
        | (.error e, u) => (.error e, u)
        | (.ok v, u) => Run.evaluateFrom self global fuel v rest u := by
  rw [evaluateFrom_next fuel result h, Run.bind_apply]
  rcases self.form .code global source.skip s with ⟨e | ⟨f | form, rest⟩, t⟩
  · rfl
  · rfl
  · refine (Run.bind_apply (self (.eval form global)) _ t).trans ?_
    dsimp only
    rcases self (.eval form global) t with ⟨e | v, u⟩ <;> rfl

variable {line : Source} (h : self.Settled line)
include h

/-- A form that is read takes a character at least. -/
theorem form_length_lt {mode : Mode} {v : Value} {rest : Source} {t : Store}
    (hread : self.form mode global source s = (.ok (.ok v, rest), t)) :
    rest.length < source.length := by
  obtain ⟨token, inner, hnext, hparse⟩ := form_eq_ok hread
  have hend : token ≠ .endOfInput := by
    rintro rfl
    have hcut := h.cut mode global inner s
    rw [Recur.parse, hparse] at hcut
    exact hcut
  exact Nat.lt_of_le_of_lt (h.advances _ _ _ _ _ _ _ _ hparse) (Token.length_next_lt hnext hend)

/-- Fuel for every character is enough. -/
theorem evaluateFrom_fuel {fuel fuel' : Nat} (hfuel : source.length < fuel)
    (hfuel' : source.length < fuel') (result : Value) :
    Run.evaluateFrom self global fuel result source s =
      Run.evaluateFrom self global fuel' result source s := by
  induction fuel generalizing fuel' result source s with
  | zero => exact absurd hfuel (Nat.not_lt_zero _)
  | succ fuel ih =>
    obtain ⟨fuel', rfl⟩ := Nat.exists_eq_add_one.mpr (Nat.zero_lt_of_lt hfuel')
    by_cases hskip : source.skip = []
    · rw [evaluateFrom_blank _ _ hskip, evaluateFrom_blank _ _ hskip]
    · rw [evaluateFrom_step _ _ hskip, evaluateFrom_step _ _ hskip]
      rcases hread : self.form .code global source.skip s with ⟨e | ⟨f | form, rest⟩, t⟩
      · rfl
      · rfl
      · -- each form takes characters, so either fuel outlasts the text
        have hlt := form_length_lt h hread
        have hle := Source.length_skip_le source
        dsimp only
        rcases self (.eval form global) t with ⟨e | v, u⟩
        · rfl
        · exact ih (by omega) (by omega) v

/-- Evaluation comes to the end of a text and goes on behind it, or it fails on the way. -/
theorem evaluateFrom_append_line {fuel fuel' : Nat} (hfuel : fuel + line.length + 1 ≤ fuel')
    (result : Value) :
    GoesOn (fun v => Run.evaluateFrom self global (line.length + 1) v line)
      (Run.evaluateFrom self global fuel result source s)
      (Run.evaluateFrom self global fuel' result (source ++ '\n' :: line) s) := by
  induction fuel generalizing fuel' result source s with
  | zero => exact .inr (.inl rfl)
  | succ fuel ih =>
    obtain ⟨fuel', rfl⟩ := Nat.exists_eq_add_one.mpr (Nat.lt_of_lt_of_le (Nat.succ_pos _) hfuel)
    have hwhole := Source.skip_append_line source line
    by_cases hskip : source.skip = []
    · -- what is left of the text ends with the line
      rw [if_pos hskip] at hwhole
      have hline : Run.evaluateFrom self global (fuel' + 1) result (source ++ '\n' :: line) s =
          Run.evaluateFrom self global (fuel' + 1) result line s := by
        simp only [Run.evaluateFrom, hwhole]
      rw [evaluateFrom_blank _ _ hskip, hline]
      exact evaluateFrom_fuel h (by omega) (Nat.lt_succ_self _) result
    · rw [if_neg hskip] at hwhole
      have hne : (source ++ '\n' :: line).skip ≠ [] := by simp [hwhole]
      have hextended := form_extended h .code global source.skip s
      rw [evaluateFrom_step _ _ hskip, evaluateFrom_step _ _ hne, hwhole]
      rcases hread : self.form .code global source.skip s with ⟨e | ⟨f | form, rest⟩, t⟩ <;>
        rw [hread] at hextended <;> rcases hextended with hcut | heq
      · exact .inr (.inl hcut)
      · rw [heq]
        exact .inr (.inr rfl)
      · -- refused at the end of the text, where the line may go on
        exact .inl (congrArg Stop.fault hcut)
      · rw [heq]
        exact .inr (.inr rfl)
      · exact hcut.elim
      · rw [heq]
        dsimp only [Except.map]
        rcases self (.eval form global) t with ⟨e | v, u⟩
        · exact .inr (.inr rfl)
        · exact ih (by omega) v

end Programs

/-- Where a text is split at the end of a line, its two parts can be evaluated in turn.  If the
first succeeds, the whole has the effects of both, and the result of the second if that holds a
form; if the first fails, and not because it ends too early, the second is not even read. -/
theorem evaluate_append_line (a : Allowance) (e : Engine) (first second : String) (s : Store) :
    (∀ v t, e.evaluate a first s = (.ok v, t) →
      e.evaluate a (first ++ "\n" ++ second) s =
        (if Source.skip second.toList = [] then .ok v else (e.evaluate a second t).1,
          (e.evaluate a second t).2)) ∧
    (∀ f t, e.evaluate a first s = (.error (.fault f), t) → f ≠ .unexpectedEnd →
      e.evaluate a (first ++ "\n" ++ second) s = (.error (.fault f), t)) := by
  have hwhole : (first ++ "\n" ++ second).toList = first.toList ++ '\n' :: second.toList := by simp
  have hstep : GoesOn
      (fun v => Run.evaluateFrom a.run e.global (second.toList.length + 1) v second.toList)
      (e.evaluate a first s) (e.evaluate a (first ++ "\n" ++ second) s) := by
    rw [Engine.evaluate, Engine.evaluate, hwhole, Run.evaluate, Run.evaluate]
    refine evaluateFrom_append_line (run_settled second.toList a.rounds a.calls) ?_ .nil
    rw [List.length_append, List.length_cons]
    omega
  refine ⟨fun v t h => ?_, fun f t h hf => ?_⟩ <;> rw [h] at hstep
  · refine Eq.trans hstep ?_
    dsimp only
    rw [Engine.evaluate, Run.evaluate]
    -- a second text without forms leaves the first one's value
    by_cases hskip : Source.skip second.toList = []
    · rw [if_pos hskip, evaluateFrom_blank _ _ hskip, evaluateFrom_blank _ _ hskip]
    · rw [if_neg hskip, evaluateFrom_step _ _ hskip, evaluateFrom_step _ _ hskip]
      rfl
  · rcases hstep with hend | hnever | heq
    · exact absurd (Stop.fault.inj hend) hf
    · cases hnever
    · exact heq

/-- A comment ends with its line, so what follows is evaluated; after a stray parenthesis nothing
is, whatever it would do. -/
theorem evaluate_append_line_of_comment :
    let s := ((Store.empty .empty).addRealm .preserve 2).2
    let e : Engine := ⟨0, 0⟩
    let a : Allowance := ⟨9, 9⟩
    (e.evaluate a "t ; one" s).1 = .ok .t ∧
      (e.evaluate a ("t ; one" ++ "\n" ++ "nil") s).1 = .ok .nil ∧
      (e.evaluate a "t )" s).1 = .error (.fault .extraneousClose) ∧
      e.evaluate a ("t )" ++ "\n" ++ "(define x t)") s = e.evaluate a "t )" s := by
  intro s e a
  have hfirst : (e.evaluate a "t ; one" s).1 = .ok .t := by decide +kernel
  have hsecond : (e.evaluate a "nil" (e.evaluate a "t ; one" s).2).1 = .ok .nil := by decide +kernel
  have hstray : (e.evaluate a "t )" s).1 = .error (.fault .extraneousClose) := by decide +kernel
  clear_value s e a
  have hwhole := (evaluate_append_line a e "t ; one" "nil" s).1 .t _ (Prod.ext hfirst rfl)
  have hskip : ¬ Source.skip "nil".toList = [] := by decide
  rw [if_neg hskip] at hwhole
  have hpair : e.evaluate a "t )" s =
      (.error (.fault .extraneousClose), (e.evaluate a "t )" s).2) := Prod.ext hstray rfl
  have hsame := (evaluate_append_line a e "t )" "(define x t)" s).2 _ _ hpair nofun
  exact ⟨hfirst, (congrArg Prod.fst hwhole).trans hsecond, hstray, hsame.trans hpair.symm⟩

end PocketLisp
