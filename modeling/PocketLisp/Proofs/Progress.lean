/-
PocketLisp/Proofs/Progress.lean

Taking tokens makes progress.

A text is left in states by taking tokens and by skipping blanks and comments,
in any order.  In each of them, a token or a fault takes a character at least,
and a token is missing only where nothing but blanks and comments remains
(`Progress.of_reached`).  A fault is met only in a text that is not closed.

A reading asks for its tokens one after the other.  `Reading.Demands` counts
them along the way in which readings are put together; what has been asked for
and what is left are together no longer than the text, but for the one token
that ends the reading (`Reading.Frugal`).

Main result: `tokens_progress`.  With it, the loops that read, evaluate and count
the tokens of a text end before their bound, and none asks for more tokens than
the text has characters and one.
-/
import PocketLisp.Proofs.CompleteInput
import PocketLisp.Proofs.Forward
import PocketLisp.Proofs.Rereading

namespace PocketLisp

/-! ### What a text without a token is -/

/-- The rest of a text, behind its opening quote, that has no closing quote. -/
inductive Unclosed : Source → Prop
  | none : Unclosed []
  /-- a backslash with nothing behind it -/
  | escape : Unclosed ['\\']
  | escaped (c : Char) {cs : Source} : Unclosed cs → Unclosed ('\\' :: c :: cs)
  | other {c : Char} {cs : Source} : c ≠ '"' → c ≠ '\\' → Unclosed cs → Unclosed (c :: cs)

theorem Token.takeText_eq_none_iff {collected : List Char} {cs : Source} :
    takeText collected cs = none ↔ Unclosed cs := by
  constructor
  · intro h
    fun_induction takeText collected cs with
    | case1 => exact .none
    | case2 => cases h
    | case3 => exact .escape
    | case4 collected c cs ih => exact .escaped c (ih h)
    | case5 collected c cs hquote hend hescape ih =>
      -- an ordinary character, the two cases before having taken the escapes
      exact .other hquote (ne_escape hend hescape) (ih h)
  · intro h
    induction h generalizing collected with
    | none | escape => rfl
    | escaped c _ ih => exact ih
    | other hquote hescape _ ih =>
      rw [takeText_other hquote hescape]
      exact ih

/-- Blanks and comments up to the end of a text, where the last comment may lack its line end. -/
inductive Ended : Source → Prop
  | gap {gap : Source} : Gap gap → Ended gap
  | comment {gap line : Source} : Gap gap → '\n' ∉ line → Ended (gap ++ ';' :: line)

theorem Ended.blank {c : Char} {cs : Source} (hc : Text.isBlank c = true) (h : Ended cs) :
    Ended (c :: cs) := by
  cases h with
  | gap hgap => exact .gap (.blank hc hgap)
  | comment hgap hline => exact .comment (.blank hc hgap) hline

theorem Ended.line {line cs : Source} (hline : '\n' ∉ line) (h : Ended cs) :
    Ended (';' :: (line ++ '\n' :: cs)) := by
  cases h with
  | gap hgap => exact .gap (.comment hline hgap)
  | @comment gap last hgap hlast =>
    have happend : ';' :: (line ++ '\n' :: (gap ++ ';' :: last)) =
        ';' :: (line ++ '\n' :: gap) ++ ';' :: last := by simp
    exact happend ▸ .comment (.comment hline hgap) hlast

namespace Source

theorem skipFrom_unended {line : Source} (h : '\n' ∉ line) : skipFrom true line = [] := by
  induction line with
  | nil => rfl
  | cons c line ih =>
    obtain ⟨hc, hline⟩ : '\n' ≠ c ∧ '\n' ∉ line := by simpa using h
    simp [skipFrom, Ne.symm hc, ih hline]

/-- Where everything is skipped, only blanks and comments remain, behind a comment that has been
begun as well. -/
theorem ended_of_skipFrom (cs : Source) :
    (skipFrom false cs = [] → Ended cs) ∧
      ∀ line, '\n' ∉ line → skipFrom true cs = [] → Ended (';' :: (line ++ cs)) := by
  induction cs with
  | nil =>
    refine ⟨fun _ => .gap .none, fun line hline _ => ?_⟩
    rw [List.append_nil]
    exact .comment .none hline
  | cons c cs ih =>
    constructor
    · intro h
      by_cases hblank : Text.isBlank c = true
      · exact .blank hblank (ih.1 (by simpa [skipFrom, hblank] using h))
      · by_cases hsemi : c = ';'
        · subst hsemi
          exact ih.2 [] List.not_mem_nil (by simpa [skipFrom, hblank] using h)
        · simp [skipFrom, hblank, hsemi] at h
    · intro line hline h
      -- the line feed ends the comment, any other character makes its line longer
      by_cases hend : c = '\n'
      · subst hend
        exact .line hline (ih.1 (by simpa [skipFrom] using h))
      · have hlonger : '\n' ∉ line ++ [c] := by simpa using ⟨hline, Ne.symm hend⟩
        have hmore := ih.2 (line ++ [c]) hlonger (by simpa [skipFrom, hend] using h)
        rwa [List.append_assoc] at hmore

/-- Everything is skipped exactly if nothing but blanks and comments remains. -/
theorem skip_eq_nil_iff {cs : Source} : cs.skip = [] ↔ Ended cs := by
  refine ⟨(ended_of_skipFrom cs).1, fun h => ?_⟩
  cases h with
  | gap hgap => exact hgap.skip
  | comment hgap hline => rw [skip_gap hgap, skip_semicolon, skipFrom_unended hline]

end Source

/-! ### The states of a text -/

/-- What is left of a text, in any state that taking tokens and skipping blanks and comments lead
to. -/
inductive Reached (text : Source) : Source → Prop
  | start : Reached text text
  | next {source rest : Source} {r : Except Fault Token} : Reached text source →
      Token.next source = (r, rest) → Reached text rest
  | skip {source : Source} : Reached text source → Reached text source.skip

/-- How many characters of a text have been taken where so much of it is left. -/
def Source.position (source text : Source) : Nat := text.length - source.length

theorem Reached.suffix {text source : Source} (h : Reached text source) : source <:+ text := by
  induction h with
  | start => exact List.suffix_refl _
  | @next source rest r _ hnext ih =>
    have hsuffix := Token.next_suffix source
    rw [hnext] at hsuffix
    exact hsuffix.trans ih
  | @skip source _ ih => exact source.skip_suffix.trans ih

namespace Token

variable {source rest : Source} {r : Except Fault Token} {f : Fault}

/-- A fault is met exactly in a text that is not closed, and then nothing is left. -/
theorem next_eq_error_iff : next source = (.error f, rest) ↔
    f = .unexpectedEnd ∧ rest = [] ∧ ∃ body, source.skip = '"' :: body ∧ Unclosed body := by
  constructor
  · intro h
    have hfault := next_error h
    rw [next] at h
    generalize source.skip = cs at h
    fun_cases take cs with
    | case1 | case2 | case3 | case4 => cases h
    | case5 cs content rest' htake => simp [take, htake] at h
    | case6 cs htake =>
      -- the one token that can fail is a text
      simp only [take, htake, Prod.mk.injEq] at h
      exact ⟨hfault, h.2.symm, cs, rfl, takeText_eq_none_iff.mp htake⟩
    | case7 c cs hleft hright hquote hdouble =>
      rw [take.eq_6 c cs hleft hright hquote hdouble] at h
      cases h
  · rintro ⟨rfl, rfl, body, hskip, hbody⟩
    have htake : takeText [] body = none := takeText_eq_none_iff.mpr hbody
    rw [next, hskip]
    simp [take, htake]

/-- There is no token exactly if nothing but blanks and comments remains. -/
theorem next_eq_endOfInput_iff : (next source).1 = .ok .endOfInput ↔ Ended source := by
  rw [← Source.skip_eq_nil_iff]
  constructor
  · intro h
    exact eq_nil_of_take_end (Prod.ext h rfl)
  · intro h
    rw [next_of_skip_nil h]

end Token

/-- What taking a token does in a state of a text. -/
structure Progress (text source : Source) (r : Except Fault Token) (rest : Source) : Prop where
  /-- unless the end is met, the position moves on, and not past the end -/
  advances : r ≠ .ok .endOfInput →
    source.position text < rest.position text ∧ rest.position text ≤ text.length
  /-- a symbol has a name, without blanks, parentheses, double quotes and semicolons, that starts
  with no quote mark -/
  symbol : ∀ name, r = .ok (.symbol name) → name.toList ≠ [] ∧
    (∀ c ∈ name.toList, Text.isBlank c = false ∧ c ≠ '(' ∧ c ≠ ')' ∧ c ≠ '"' ∧ c ≠ ';') ∧
    name.toList.head? ≠ some '\''
  /-- a fault is that of a text that is not closed, and the end has been met -/
  fault : ∀ f, r = .error f → f = .unexpectedEnd ∧ rest.position text = text.length ∧
    ∃ body, source.skip = '"' :: body ∧ Unclosed body
  ended : r = .ok .endOfInput ↔ Ended source

/-- Taking a token makes progress in every state of a text. -/
theorem Progress.of_reached {text source rest : Source} {r : Except Fault Token}
    (h : Reached text source) (hnext : Token.next source = (r, rest)) :
    Progress text source r rest := by
  have hle := h.suffix.length_le
  refine ⟨fun hend => ?_, ?_, ?_, ?_⟩
  · -- behind an opening quote, what a fault leaves is shorter, too
    have hlt : rest.length < source.length := by
      rcases r with f | token
      · obtain ⟨-, rfl, body, hskip, -⟩ := Token.next_eq_error_iff.mp hnext
        have hskipped := source.length_skip_le
        rw [hskip, List.length_cons] at hskipped
        exact Nat.lt_of_lt_of_le (Nat.succ_pos _) hskipped
      · exact Token.length_next_lt hnext fun htoken => hend (htoken ▸ rfl)
    simp only [Source.position]
    omega
  · rintro name rfl
    obtain ⟨hword, -⟩ := Token.word_of_next hnext
    exact ⟨hword.ne_nil, fun c hc => Token.not_delimiter (hword.plain c hc), hword.unquoted⟩
  · rintro f rfl
    obtain ⟨hfault, rfl, hunclosed⟩ := Token.next_eq_error_iff.mp hnext
    exact ⟨hfault, rfl, hunclosed⟩
  · rw [← Token.next_eq_endOfInput_iff, hnext]

/-! ### How many tokens a reading asks for -/

namespace Reading

variable {α β : Type}

/-- A reading asks for so many tokens of a text, in a store; counted along the way in which it is
put together, and, where it reads a form, in the activity that this is. -/
inductive Demands : {α : Type} → Reading α → Source → Store → Nat → Prop
  | token (source : Source) (s : Store) : Demands Reading.token source s 1
  | pure {α : Type} (a : α) (source : Source) (s : Store) : Demands (pure a) source s 0
  | throw {α : Type} (f : Fault) (source : Source) (s : Store) :
      Demands (throw f : Reading α) source s 0
  | get (source : Source) (s : Store) : Demands MonadState.get source s 0
  | ofRun {α : Type} (body : Run α) (source : Source) (s : Store) : Demands (ofRun body) source s 0
  | bind {α β : Type} {m : Reading α} {k : α → Reading β} {source rest : Source} {s t : Store}
      {a : α} {n n' : Nat} : Demands m source s n → m source s = (.ok (.ok a, rest), t) →
        Demands (k a) rest t n' → Demands (m >>= k) source s (n + n')
  /-- a part that has no result is the last one -/
  | last {α β : Type} {m : Reading α} {k : α → Reading β} {source : Source} {s : Store} {n : Nat} :
      Demands m source s n → (∀ a rest t, m source s ≠ (.ok (.ok a, rest), t)) →
        Demands (m >>= k) source s n
  | unfinished {rounds : Nat} {token : Token} {mode : Mode} {env : FrameId} (source : Source)
      (s : Store) : Demands ((run rounds 0).parse token mode env) source s 0
  | refused {rounds calls : Nat} {mode : Mode} {env : FrameId} {source : Source} {s : Store} :
      ¬ (s.level (s.realmOf env)).HasRoom →
        Demands ((run rounds (calls + 1)).parse .leftParen mode env) source s 0
  /-- a list is read in a nested step -/
  | nested {rounds calls : Nat} {mode : Mode} {env : FrameId} {source : Source} {s : Store}
      {n : Nat} : (s.level (s.realmOf env)).HasRoom →
        Demands (Run.Parsing.form (run rounds calls) .leftParen mode env) source (s.deepen env) n →
          Demands ((run rounds (calls + 1)).parse .leftParen mode env) source s n
  | parse {rounds calls : Nat} {token : Token} {mode : Mode} {env : FrameId} {source : Source}
      {s : Store} {n : Nat} : token ≠ .leftParen →
        Demands (Run.Parsing.form (run rounds calls) token mode env) source s n →
          Demands ((run rounds (calls + 1)).parse token mode env) source s n

/-- So many tokens and what is left are no longer than a text together, but for one token that is
asked for where the reading fails. -/
def Within (source : Source) (n : Nat) : Except Stop (Except Fault α × Source) → Prop
  | .ok (.ok _, rest) => n + rest.length ≤ source.length
  | .ok (.error _, rest) => n + rest.length ≤ source.length + 1
  | .error _ => n ≤ source.length + 1

/-- A reading asks for no more tokens than it takes characters, and one. -/
def Frugal (m : Reading α) : Prop :=
  ∀ source s, ∃ n, Demands m source s n ∧ Within source n (m source s).1

/-- A reading that only fails, and asks for nothing. -/
def Barren (m : Reading α) : Prop :=
  ∀ source s, Demands m source s 0 ∧
    ((∃ f, (m source s).1 = .ok (.error f, source)) ∨ ∃ e, (m source s).1 = .error e)

namespace Frugal

variable {m : Reading α} {k : α → Reading β}

protected theorem pure (a : α) : Frugal (pure a : Reading α) := fun source s =>
  ⟨0, .pure a source s, (Nat.zero_add _).le⟩

protected theorem throw (f : Fault) : Frugal (throw f : Reading α) := fun source s =>
  ⟨0, .throw f source s, (Nat.zero_add _).le.trans (Nat.le_succ _)⟩

protected theorem get : Frugal (MonadState.get : Reading Source) := fun source s =>
  ⟨0, .get source s, (Nat.zero_add _).le⟩

protected theorem ofRun (body : Run α) : Frugal (Reading.ofRun body) := by
  intro source s
  refine ⟨0, .ofRun body source s, ?_⟩
  rw [ofRun_apply]
  rcases body s with ⟨(f | _) | a, t⟩ <;> simp [Within]

protected theorem bind (hm : Frugal m) (hk : ∀ a, Frugal (k a)) : Frugal (m >>= k) := by
  intro source s
  obtain ⟨n, hn, hwithin⟩ := hm source s
  rcases hms : m source s with ⟨e | ⟨f | a, middle⟩, t⟩ <;> rw [hms] at hwithin
  · refine ⟨n, .last hn (by rw [hms]; nofun), ?_⟩
    rwa [bind_apply_stop hms]
  · refine ⟨n, .last hn (by rw [hms]; nofun), ?_⟩
    rwa [bind_apply_fault hms]
  · obtain ⟨n', hn', hwithin'⟩ := hk a middle t
    refine ⟨n + n', .bind hn hms hn', ?_⟩
    rw [bind_apply_ok hms]
    rcases hkt : k a middle t with ⟨e | ⟨f | b, rest⟩, u⟩ <;> rw [hkt] at hwithin' <;>
      simp only [Within] at hwithin hwithin' ⊢ <;> omega

/-- The token that a reading starts with is one of those that it asks for.  Where it is missing, the
reading has to fail at once. -/
theorem token_bind {k : Token → Reading β} (hk : ∀ token, token ≠ .endOfInput → Frugal (k token))
    (hend : Barren (k .endOfInput)) (source : Source) (s : Store) :
    ∃ n, Demands (Reading.token >>= k) source s (n + 1) ∧
      Within source (n + 1) ((Reading.token >>= k) source s).1 := by
  have hsuffix := (Token.next_suffix source).length_le
  rcases hnext : Token.next source with ⟨f | token, inner⟩ <;> rw [hnext] at hsuffix
  · have htoken := token_of_next hnext s
    refine ⟨0, .last (.token source s) (by rw [htoken]; nofun), ?_⟩
    rw [bind_apply_fault htoken]
    simp only [Within] at hsuffix ⊢
    omega
  · have htoken := token_of_next hnext s
    rw [bind_apply_ok htoken]
    -- the end of the input asks for nothing more, any other token uses up a character
    by_cases hmissing : token = .endOfInput
    · subst hmissing
      obtain ⟨hasks, hfails⟩ := hend inner s
      have hone : Demands (Reading.token >>= k) source s (1 + 0) :=
        .bind (.token source s) htoken hasks
      refine ⟨0, hone, ?_⟩
      rcases hfails with ⟨f, hf⟩ | ⟨e, he⟩
      · rw [hf]
        simp only [Within] at hsuffix ⊢
        omega
      · rw [he]
        simp only [Within]
        omega
    · have hlt := Token.length_next_lt hnext hmissing
      obtain ⟨n, hn, hwithin⟩ := hk token hmissing inner s
      refine ⟨n, Nat.add_comm n 1 ▸ .bind (.token source s) htoken hn, ?_⟩
      rcases hrest : k token inner s with ⟨e | ⟨f | b, rest⟩, t⟩ <;> rw [hrest] at hwithin <;>
        simp only [Within] at hwithin ⊢ <;> omega

theorem of_token_bind {k : Token → Reading β}
    (hk : ∀ token, token ≠ .endOfInput → Frugal (k token)) (hend : Barren (k .endOfInput)) :
    Frugal (Reading.token >>= k) := fun source s =>
  (token_bind hk hend source s).imp' _ fun _ h => h

end Frugal

theorem barren_throw (f : Fault) : Barren (throw f : Reading α) := fun source s =>
  ⟨.throw f source s, .inl ⟨f, rfl⟩⟩

end Reading

/-! ### The reader -/

open Reading

/-- Forms whose first token has been taken are read frugally, and there is none without a token. -/
structure Recur.Frugal (r : Recur) : Prop where
  parse : ∀ token mode env, Reading.Frugal (r.parse token mode env)
  ended : ∀ mode env, Barren (r.parse .endOfInput mode env)

section Reader

variable {self : Recur} (h : self.Frugal)
include h

theorem form_frugal (mode : Mode) (env : FrameId) : Frugal (self.form mode env) :=
  Frugal.of_token_bind (fun token _ => h.parse token mode env) (h.ended mode env)

theorem elements_frugal (mode : Mode) (env : FrameId) (bound : Source) (items : Array Value) :
    Frugal (Run.Parsing.elements self mode env bound items) := by
  induction bound generalizing items with
  | nil => exact Frugal.throw _
  | cons c bound ih =>
    have hmore : ∀ token, Frugal (self.parse token (mode.inside items) env >>= fun v =>
        Run.Parsing.elements self mode env bound (items.push v)) :=
      fun token => (h.parse token _ env).bind fun v => ih (items.push v)
    refine Frugal.of_token_bind (fun token hmissing => ?_) (barren_throw _)
    cases token with
    | rightParen => exact Frugal.pure _
    | endOfInput => exact absurd rfl hmissing
    | _ => exact hmore _

theorem list_frugal (mode : Mode) (env : FrameId) :
    Frugal (Run.Parsing.list self mode env) := by
  refine Frugal.get.bind fun source => ?_
  refine (elements_frugal h mode env source #[]).bind fun items => ?_
  cases mode with
  | data | code => exact Frugal.ofRun _

theorem parsing_frugal (token : Token) (mode : Mode) (env : FrameId) :
    Frugal (Run.Parsing.form self token mode env) := by
  cases token with
  | endOfInput | rightParen => exact Frugal.throw _
  | leftParen => exact list_frugal h mode env
  | quote => exact (form_frugal h .data env).bind fun v => Frugal.ofRun _
  | number x => exact Frugal.pure _
  | text content | symbol name => exact Frugal.ofRun _

end Reader

theorem run_frugal (rounds calls : Nat) : (run rounds calls).Frugal := by
  induction calls with
  | zero =>
    refine ⟨fun token mode env source s => ⟨0, .unfinished source s, Nat.zero_le _⟩,
      fun mode env source s => ⟨.unfinished source s, .inr ⟨_, rfl⟩⟩⟩
  | succ calls ih =>
    refine ⟨fun token mode env source s => ?_, fun mode env source s => ?_⟩
    · -- a list asks within its nested step, if that has room, and any other form directly
      by_cases hlist : token = .leftParen
      · subst hlist
        by_cases hroom : (s.level (s.realmOf env)).HasRoom
        · obtain ⟨n, hn, hwithin⟩ := parsing_frugal ih .leftParen mode env source (s.deepen env)
          refine ⟨n, .nested hroom hn, ?_⟩
          rw [show (run rounds (calls + 1)).parse .leftParen mode env source s = _ from
            Run.run_parse_list hroom]
          exact hwithin
        · refine ⟨0, .refused hroom, ?_⟩
          rw [show (run rounds (calls + 1)).parse .leftParen mode env source s = _ from
            Run.run_parse_refused hroom]
          simp [Within]
      · obtain ⟨n, hn, hwithin⟩ := parsing_frugal ih token mode env source s
        refine ⟨n, .parse hlist hn, ?_⟩
        rw [show (run rounds (calls + 1)).parse token mode env source s = _ from
          Run.run_parse hlist mode env source s]
        exact hwithin
    · exact ⟨.parse nofun (.throw _ source s), .inl ⟨.unexpectedEnd, rfl⟩⟩

/-- The next form takes a token at least. -/
theorem form_takes (rounds calls : Nat) (mode : Mode) (env : FrameId) (source : Source)
    (s : Store) : ∃ n, Demands ((run rounds calls).form mode env) source s (n + 1) ∧
      Within source (n + 1) ((run rounds calls).form mode env source s).1 :=
  Frugal.token_bind (fun token _ => (run_frugal rounds calls).parse token mode env)
    ((run_frugal rounds calls).ended mode env) source s

/-! ### Loops over the tokens of a text -/

/-- Takes the tokens of a text in so many steps, up to its end or to a fault, after those of
`collected`, which are given from the last one. -/
inductive Token.Collects : Nat → List Token → Source → List Token × Option Fault × Source → Prop
  | ended {collected : List Token} {source rest : Source} : next source = (.ok .endOfInput, rest) →
      Collects 1 collected source (collected.reverse, none, rest)
  | failed {collected : List Token} {source rest : Source} {f : Fault} :
      next source = (.error f, rest) → Collects 1 collected source (collected.reverse, some f, rest)
  | more {n : Nat} {collected : List Token} {source rest : Source} {token : Token}
      {r : List Token × Option Fault × Source} : next source = (.ok token, rest) →
        token ≠ .endOfInput → Collects n (token :: collected) rest r →
          Collects (n + 1) collected source r

theorem Token.collects_collect {fuel : Nat} {source : Source} (h : source.length < fuel)
    (collected : List Token) :
    ∃ n, n ≤ source.length + 1 ∧ Collects n collected source (collect collected fuel source) := by
  induction fuel generalizing collected source with
  | zero => exact absurd h (Nat.not_lt_zero _)
  | succ fuel ih =>
    rcases hnext : next source with ⟨f | token, rest⟩
    · rw [collect, hnext]
      exact ⟨1, Nat.succ_le_succ (Nat.zero_le _), .failed hnext⟩
    · -- the loop goes on behind a token that shortened the source
      by_cases hend : token = .endOfInput
      · subst hend
        rw [collect, hnext]
        exact ⟨1, Nat.succ_le_succ (Nat.zero_le _), .ended hnext⟩
      · have hlt := length_next_lt hnext hend
        have hfuel : rest.length < fuel := by omega
        obtain ⟨n, hn, hcollects⟩ := ih hfuel (token :: collected)
        have hmore : collect collected (fuel + 1) source =
            collect (token :: collected) fuel rest := by
          rw [collect, hnext]
          cases token with
          | endOfInput => exact absurd rfl hend
          | _ => rfl
        rw [hmore]
        exact ⟨n + 1, by omega, .more hnext hend hcollects⟩

section Loops

variable (self : Recur) (env : FrameId)

/-- Reads and evaluates the forms of a text, as long as there are any, and asks for so many tokens;
how this ends. -/
inductive Run.EvaluatesFrom : Nat → Value → Source → Store → Except Stop Value × Store → Prop
  | done {result : Value} {source : Source} {s : Store} : source.skip = [] →
      EvaluatesFrom 0 result source s (.ok result, s)
  | stopped {n : Nat} {result : Value} {source : Source} {s t : Store} {e : Stop} :
      source.skip ≠ [] → Demands (self.form .code env) source.skip s n →
        self.form .code env source.skip s = (.error e, t) →
          EvaluatesFrom n result source s (.error e, t)
  | refused {n : Nat} {result : Value} {source rest : Source} {s t : Store} {f : Fault} :
      source.skip ≠ [] → Demands (self.form .code env) source.skip s n →
        self.form .code env source.skip s = (.ok (.error f, rest), t) →
          EvaluatesFrom n result source s (.error (.fault f), t)
  | failed {n : Nat} {result form : Value} {source rest : Source} {s t u : Store} {e : Stop} :
      source.skip ≠ [] → Demands (self.form .code env) source.skip s n →
        self.form .code env source.skip s = (.ok (.ok form, rest), t) →
          self (.eval form env) t = (.error e, u) → EvaluatesFrom n result source s (.error e, u)
  | more {n n' : Nat} {result form v : Value} {source rest : Source} {s t u : Store}
      {r : Except Stop Value × Store} :
      source.skip ≠ [] → Demands (self.form .code env) source.skip s n →
        self.form .code env source.skip s = (.ok (.ok form, rest), t) →
          self (.eval form env) t = (.ok v, u) → EvaluatesFrom n' v rest u r →
            EvaluatesFrom (n + n') result source s r

/-- Reads the forms of a text after those of `forms`, which are given from the last one, as long as
there are any, and asks for so many tokens; how this ends. -/
inductive Run.DrainsFrom (mode : Mode) : Nat → List Value → Source → Store →
    Except Stop (Except Fault (List Value) × Source) × Store → Prop
  | done {forms : List Value} {source : Source} {s : Store} : source.skip = [] →
      DrainsFrom mode 0 forms source s (.ok (.ok forms.reverse, []), s)
  | stopped {n : Nat} {forms : List Value} {source : Source} {s t : Store} {e : Stop} :
      source.skip ≠ [] → Demands (self.form mode env) source.skip s n →
        self.form mode env source.skip s = (.error e, t) →
          DrainsFrom mode n forms source s (.error e, t)
  | refused {n : Nat} {forms : List Value} {source rest : Source} {s t : Store} {f : Fault} :
      source.skip ≠ [] → Demands (self.form mode env) source.skip s n →
        self.form mode env source.skip s = (.ok (.error f, rest), t) →
          DrainsFrom mode n forms source s (.ok (.error f, rest), t)
  | more {n n' : Nat} {forms : List Value} {v : Value} {source rest : Source} {s t : Store}
      {r : Except Stop (Except Fault (List Value) × Source) × Store} :
      source.skip ≠ [] → Demands (self.form mode env) source.skip s n →
        self.form mode env source.skip s = (.ok (.ok v, rest), t) →
          DrainsFrom mode n' (v :: forms) rest t r → DrainsFrom mode (n + n') forms source s r

end Loops

variable {rounds calls : Nat} {env : FrameId}

theorem evaluatesFrom_evaluateFrom {fuel : Nat} {source : Source} (h : source.length < fuel)
    (result : Value) (s : Store) :
    ∃ n, n ≤ source.length + 1 ∧ Run.EvaluatesFrom (run rounds calls) env n result source s
      (Run.evaluateFrom (run rounds calls) env fuel result source s) := by
  induction fuel generalizing result source s with
  | zero => exact absurd h (Nat.not_lt_zero _)
  | succ fuel ih =>
    by_cases hempty : source.skip = []
    · rw [evaluateFrom_blank fuel result hempty]
      exact ⟨0, Nat.zero_le _, .done hempty⟩
    · have hle := source.length_skip_le
      obtain ⟨n, hn, hwithin⟩ := form_takes rounds calls .code env source.skip s
      rw [evaluateFrom_step fuel result hempty]
      -- the form stops the run, is refused, or is evaluated before the loop goes on
      rcases hform : (run rounds calls).form .code env source.skip s with
        ⟨e | ⟨f | form, rest⟩, t⟩ <;>
        rw [hform] at hwithin <;> simp only [Within] at hwithin ⊢
      · exact ⟨n + 1, by omega, .stopped hempty hn hform⟩
      · exact ⟨n + 1, by omega, .refused hempty hn hform⟩
      · rcases heval : run rounds calls (.eval form env) t with ⟨e | v, u⟩
        · exact ⟨n + 1, by omega, .failed hempty hn hform heval⟩
        · have hlt : rest.length < fuel := by omega
          obtain ⟨n', hn', hrest⟩ := ih hlt v u
          exact ⟨n + 1 + n', by omega, .more hempty hn hform heval hrest⟩

theorem drainsFrom_drainFrom {fuel : Nat} {source : Source} (h : source.length < fuel)
    (mode : Mode) (forms : List Value) (s : Store) :
    ∃ n, n ≤ source.length + 1 ∧ Run.DrainsFrom (run rounds calls) env mode n forms source s
      (Run.drainFrom (run rounds calls) mode env fuel forms source s) := by
  induction fuel generalizing forms source s with
  | zero => exact absurd h (Nat.not_lt_zero _)
  | succ fuel ih =>
    by_cases hempty : source.skip = []
    · rw [drainFrom_nil _ _ fuel forms hempty]
      exact ⟨0, Nat.zero_le _, .done hempty⟩
    · have hle := source.length_skip_le
      obtain ⟨n, hn, hwithin⟩ := form_takes rounds calls mode env source.skip s
      -- the form stops the run, is refused, or is kept before the loop goes on
      rcases hform : (run rounds calls).form mode env source.skip s with ⟨e | ⟨f | v, rest⟩, t⟩ <;>
        rw [hform] at hwithin <;> simp only [Within] at hwithin
      · rw [drainFrom_succ, if_neg (mt List.isEmpty_iff.mp hempty), Reading.bind_apply_stop hform]
        exact ⟨n + 1, by omega, .stopped hempty hn hform⟩
      · rw [drainFrom_succ, if_neg (mt List.isEmpty_iff.mp hempty), Reading.bind_apply_fault hform]
        exact ⟨n + 1, by omega, .refused hempty hn hform⟩
      · rw [drainFrom_cons _ _ fuel forms hempty hform]
        have hlt : rest.length < fuel := by omega
        obtain ⟨n', hn', hrest⟩ := ih hlt (v :: forms) t
        exact ⟨n + 1 + n', by omega, .more hempty hn hform hrest⟩

/-- In every state of a text, taking a token makes progress.  So the loops over the tokens of a text
end, though they have no bound of their own, with what the bounded ones result in; that which counts
the parentheses of a text, that which evaluates its forms and that which reads them.  None of them
asks for more tokens than the text has characters and one. -/
theorem tokens_progress (text : Source) :
    (∀ source r rest, Reached text source → Token.next source = (r, rest) →
      Progress text source r rest) ∧
    (∃ n, n ≤ text.length + 1 ∧ Token.Collects n [] text (Token.all text)) ∧
    ∀ rounds calls env s,
      (∃ n, n ≤ text.length + 1 ∧ Run.EvaluatesFrom (run rounds calls) env n .nil text s
        (Run.evaluate (run rounds calls) env text s)) ∧
      ∃ n, n ≤ text.length + 1 ∧ Run.DrainsFrom (run rounds calls) env .code n [] text s
        (Run.readAll (run rounds calls) env text s) :=
  ⟨fun _ _ _ hreached hnext => .of_reached hreached hnext,
    Token.collects_collect (Nat.lt_add_one _) [],
    fun _ _ _ s => ⟨evaluatesFrom_evaluateFrom (Nat.lt_add_one _) .nil s,
      drainsFrom_drainFrom (Nat.lt_add_one _) .code [] s⟩⟩

end PocketLisp
