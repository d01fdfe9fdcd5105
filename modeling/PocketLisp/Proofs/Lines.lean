/-
PocketLisp/Proofs/Lines.lean

Lines as the body of one `progn`.

Lines are evaluated in a text in which they stand between `(progn` and a
closing parenthesis on a line of its own.  What is read of that text is told by
what the lines hold (`reads_prognText`): either they are forms up to their end,
and then the parenthesis behind them closes the list (`ReadsWhole`); or they are
forms up to a parenthesis of their own that closes it (`Reads`); or the text
starts with no form (`reads_closed_iff`).

Main result: `lines_as_progn`.  In the first case one form is read and
evaluated; in the last one none is.  In the second one the list ends inside the
lines, and what is behind it is evaluated as well (`lines_close_progn`).
-/
import PocketLisp.Proofs.CompleteInput
import PocketLisp.Proofs.Draining
import PocketLisp.Proofs.Splitting
import PocketLisp.Proofs.Verbatim

namespace PocketLisp

/-! ### A text and a closing parenthesis behind it -/

/-- A whole text is a sequence of forms. -/
inductive ReadsWhole : Source → Datum .items → Prop
  | none {source : Source} : source.skip = [] → ReadsWhole source .none
  | more {source inner : Source} {d : Datum .form} {ds : Datum .items} :
      Reads source d inner → ReadsWhole inner ds → ReadsWhole source (.more d ds)

/-- A text with a closing parenthesis on a line of its own behind it. -/
def Source.closed (source : Source) : Source := source ++ ['\n', ')']

variable {source rest : Source}

namespace Token

theorem takeText_of_not_mem {collected cs : List Char} (h : '"' ∉ cs) :
    takeText collected cs = none := by
  fun_induction takeText collected cs with
  | case1 | case3 => rfl
  | case2 collected cs => exact absurd List.mem_cons_self h
  | case4 collected c cs ih => exact ih fun hmem => h (List.mem_cons_of_mem _ (.tail _ hmem))
  | case5 collected c cs _ _ _ ih => exact ih fun hmem => h (List.mem_cons_of_mem _ hmem)

/-- A text that is not closed is not closed either in front of what holds no quotation mark. -/
theorem takeText_append_none {collected cs more : List Char} (h : takeText collected cs = none)
    (hmore : '"' ∉ more) : takeText collected (cs ++ more) = none := by
  fun_induction takeText collected cs with
  | case1 => exact takeText_of_not_mem hmore
  | case2 collected cs => cases h
  | case3 collected =>
    -- the last character escapes the first one behind the text
    rcases more with - | ⟨c, more⟩
    · rfl
    · show takeText (Text.unescape c :: collected) more = none
      exact takeText_of_not_mem fun hmem => hmore (List.mem_cons_of_mem _ hmem)
  | case4 collected c cs ih => exact ih h
  | case5 collected c cs hquote hend hescape ih =>
    rw [List.cons_append, takeText_other hquote (ne_escape hend hescape)]
    exact ih h

/-- Where a text starts with no token, it starts with a text that is not closed. -/
theorem next_append_error {cs more left : Source} {f : Fault} (h : next cs = (.error f, left))
    (hmore : '"' ∉ more) : (next (cs ++ '\n' :: more)).1 = .error .unexpectedEnd := by
  have hskip : cs.skip ≠ [] := by
    intro hnil
    rw [next, hnil] at h
    cases h
  rw [next] at h
  rw [next, Source.skip_append_line, if_neg hskip]
  generalize cs.skip = ds at h
  fun_cases take ds with
  | case1 | case2 ds | case3 ds | case4 ds => cases h
  | case5 ds content rest' htake => simp [take, htake] at h
  | case6 ds htake =>
    -- an open text is the only fault of a token, and it stays open without a quotation mark
    have hnone : takeText [] (ds ++ '\n' :: more) = none := takeText_append_none htake
      (List.not_mem_cons_of_ne_of_not_mem (by decide) hmore)
    simp only [List.cons_append, take, hnone]
  | case7 c ds hleft hright hquote hdouble _ =>
    rw [take.eq_6 c ds hleft hright hquote hdouble] at h
    cases h

/-- The token in front of the parenthesis is one of the text, unless this is at its end. -/
theorem next_closed {token : Token} (h : next source.closed = (.ok token, rest)) :
    (source.skip = [] ∧ token = .rightParen ∧ rest = []) ∨
      ∃ rest', next source = (.ok token, rest') ∧ token ≠ .endOfInput ∧ rest = rest'.closed := by
  -- nothing left but the closing parenthesis, or a token of the source itself
  by_cases hskip : source.skip = []
  · rw [Source.closed, next, Source.skip_append_line, if_pos hskip] at h
    cases h
    exact .inl ⟨hskip, rfl, rfl⟩
  · refine .inr ?_
    rcases hnext : next source with ⟨f | token', rest'⟩
    · have herror : (next source.closed).1 = _ := next_append_error hnext (by decide)
      rw [h] at herror
      cases herror
    · have hend : token' ≠ .endOfInput := by
        rintro rfl
        exact hskip (eq_nil_of_take_end hnext)
      rw [Source.closed, next_append_line _ hnext hend] at h
      cases h
      exact ⟨rest', rfl, hend, rfl⟩

theorem next_closed_of_end (h : source.skip = []) :
    next source.closed = (.ok .rightParen, []) := by
  rw [Source.closed, next, Source.skip_append_line, if_pos h]
  rfl

end Token

/-- A part of a text is read in the same way if the parenthesis is behind the text. -/
theorem Reads.closed {p : Part} {d : Datum p} (h : Reads source d rest) :
    Reads source.closed d rest.closed := by
  induction h with
  | number h => exact .number (Token.next_append_line _ h nofun)
  | text h => exact .text (Token.next_append_line _ h nofun)
  | symbol h => exact .symbol (Token.next_append_line _ h nofun)
  | quote h _ ih => exact .quote (Token.next_append_line _ h nofun) ih
  | list h _ ih => exact .list (Token.next_append_line _ h nofun) ih
  | none h => exact .none (Token.next_append_line _ h nofun)
  | more _ _ ih ih' => exact .more ih ih'

/-- The parenthesis closes a list of which all elements are in the text. -/
theorem ReadsWhole.closed {ds : Datum .items} (h : ReadsWhole source ds) :
    Reads source.closed ds [] := by
  induction h with
  | none h => exact .none (Token.next_closed_of_end h)
  | more hd _ ih => exact .more hd.closed ih

/-- If the elements of a list take the parenthesis behind a text, they are all forms of it. -/
def Datum.ClosedBehind (source : Source) : {p : Part} → Datum p → Prop
  | .form, _ => True
  | .items, ds => ReadsWhole source ds

/-- What is read of a text with the parenthesis behind it is in the text, or takes the
parenthesis. -/
theorem Reads.of_closed {p : Part} {d : Datum p} (h : Reads source.closed d rest) :
    (∃ rest', Reads source d rest' ∧ rest = rest'.closed) ∨
      d.ClosedBehind source ∧ rest = [] := by
  -- a token that is not the parenthesis is in the text, so it can only be taken last
  generalize hwhole : source.closed = whole at h
  induction h generalizing source with
  | number h =>
    subst hwhole
    rcases Token.next_closed h with ⟨-, ⟨⟩, -⟩ | ⟨rest', hnext, -, rfl⟩
    exact .inl ⟨rest', .number hnext, rfl⟩
  | text h =>
    subst hwhole
    rcases Token.next_closed h with ⟨-, ⟨⟩, -⟩ | ⟨rest', hnext, -, rfl⟩
    exact .inl ⟨rest', .text hnext, rfl⟩
  | symbol h =>
    subst hwhole
    rcases Token.next_closed h with ⟨-, ⟨⟩, -⟩ | ⟨rest', hnext, -, rfl⟩
    exact .inl ⟨rest', .symbol hnext, rfl⟩
  | quote h _ ih =>
    subst hwhole
    rcases Token.next_closed h with ⟨-, ⟨⟩, -⟩ | ⟨inner, hnext, -, rfl⟩
    rcases ih rfl with ⟨rest', hd, rfl⟩ | ⟨-, rfl⟩
    · exact .inl ⟨rest', .quote hnext hd, rfl⟩
    · exact .inr ⟨trivial, rfl⟩
  | list h _ ih =>
    subst hwhole
    rcases Token.next_closed h with ⟨-, ⟨⟩, -⟩ | ⟨inner, hnext, -, rfl⟩
    rcases ih rfl with ⟨rest', hds, rfl⟩ | ⟨-, rfl⟩
    · exact .inl ⟨rest', .list hnext hds, rfl⟩
    · exact .inr ⟨trivial, rfl⟩
  | none h =>
    subst hwhole
    rcases Token.next_closed h with ⟨hskip, -, rfl⟩ | ⟨rest', hnext, -, rfl⟩
    · exact .inr ⟨.none hskip, rfl⟩
    · exact .inl ⟨rest', .none hnext, rfl⟩
  | more _ hds ih ih' =>
    subst hwhole
    rcases ih rfl with ⟨middle, hd, rfl⟩ | ⟨-, rfl⟩
    · rcases ih' rfl with ⟨rest', hds', rfl⟩ | ⟨hds', rfl⟩
      · exact .inl ⟨rest', .more hd hds', rfl⟩
      · exact .inr ⟨.more hd hds', rfl⟩
    · -- nothing is left behind the parenthesis
      exact absurd hds.length_lt (Nat.not_lt_zero _)

/-- The elements of a list that are read of a text with the parenthesis behind it. -/
theorem reads_closed_iff {ds : Datum .items} : Reads source.closed ds rest ↔
    ReadsWhole source ds ∧ rest = [] ∨ ∃ rest', Reads source ds rest' ∧ rest = rest'.closed := by
  constructor
  · exact fun h => h.of_closed.symm
  · rintro (⟨h, rfl⟩ | ⟨rest', h, rfl⟩)
    · exact h.closed
    · exact h.closed

/-- A text is not whole if a parenthesis closes more than it opens. -/
theorem Reads.not_whole {ds ds' : Datum .items} (h : Reads source ds rest) :
    ¬ ReadsWhole source ds' := by
  intro h'
  have hrest := (h.closed.unique h'.closed).2
  rw [Source.closed] at hrest
  exact List.append_ne_nil_of_right_ne_nil _ (List.cons_ne_nil _ _) hrest

/-! ### The text in which lines are evaluated -/

/-- Lines as one text. -/
def linesText (lines : List String) : Source := (String.intercalate "\n" lines).toList

/-- The text in which lines are evaluated, behind its first two tokens. -/
def behindProgn (lines : List String) : Source :=
  '\n' :: (lines.flatMap (fun line => line.toList ++ ['\n']) ++ [')'])

theorem toList_prognText (lines : List String) :
    (Engine.prognText lines).toList = '(' :: ("progn".toList ++ behindProgn lines) := by
  simp [Engine.prognText, behindProgn, List.flatMap_map]

/-- Every line has a line break behind it, also the last one. -/
theorem flatMap_lines (line : String) (lines : List String) :
    (line :: lines).flatMap (fun line => line.toList ++ ['\n']) =
      linesText (line :: lines) ++ ['\n'] := by
  induction lines generalizing line with
  | nil => simp [linesText]
  | cons next lines ih =>
    rw [List.flatMap_cons, ih, linesText, linesText, String.intercalate_cons_cons]
    simp

theorem next_behindProgn (lines : List String) :
    Token.next (behindProgn lines) = Token.next (linesText lines).closed := by
  rcases lines with - | ⟨line, lines⟩
  · rfl
  · rw [behindProgn, flatMap_lines, List.append_assoc]
    exact Token.next_gap (.blank (by decide) .none) _

theorem next_prognText (lines : List String) :
    Token.next (Engine.prognText lines).toList =
        (.ok .leftParen, "progn".toList ++ behindProgn lines) ∧
      Token.next ("progn".toList ++ behindProgn lines) =
        (.ok (.symbol "progn"), behindProgn lines) := by
  rw [toList_prognText]
  refine ⟨Token.next_leftParen _, ?_⟩
  have hword : Token.next "progn".toList = (.ok (.symbol "progn"), []) := by decide +kernel
  exact Token.next_append_line _ hword nofun

/-- What is read of the text is a list headed by `progn`. -/
theorem reads_prognText {lines : List String} {d : Datum .form} :
    Reads (Engine.prognText lines).toList d rest ↔
      ∃ ds, d = .list (.more (.symbol "progn") ds) ∧ Reads (linesText lines).closed ds rest := by
  obtain ⟨hopen, hhead⟩ := next_prognText lines
  constructor
  · intro h
    cases h with
    -- the text is a list whose first element is the symbol progn
    | number h | text h | symbol h | quote h _ => cases hopen.symm.trans h
    | list h hitems =>
      cases hopen.symm.trans h
      cases hitems with
      | none h => cases hhead.symm.trans h
      | more hd hds =>
        obtain ⟨rfl, rfl⟩ := hd.unique (.symbol hhead)
        exact ⟨_, rfl, hds.of_next (next_behindProgn lines).symm⟩
  · rintro ⟨ds, rfl, hds⟩
    exact .list hopen (.more (.symbol hhead) (hds.of_next (next_behindProgn lines)))

/-! ### The first form of a text -/

/-- Reads the first form of a text as code and evaluates it. -/
def Engine.evaluateForm (a : Allowance) (e : Engine) (content : String) : Run Value := do
  let form ← e.readForm a content
  a.run (.eval form e.global)

section FirstForm

variable {a : Allowance} {e : Engine} {content : String} {s t : Store}

/-- It makes no difference to a form what is skipped in front of it. -/
theorem form_skip (self : Recur) (mode : Mode) (env : FrameId) :
    self.form mode env source.skip = self.form mode env source := by
  show (Reading.token >>= fun token => self.parse token mode env) source.skip =
    (Reading.token >>= fun token => self.parse token mode env) source
  rw [Reading.bind_apply, Reading.bind_apply, Reading.token_apply, Reading.token_apply,
    Token.next_skip]

theorem readForm_apply : e.readForm a content s =
    match a.run.form .code e.global content.toList s with
    | (.ok (form, _), t) => Run.ofExcept form t
    | (.error stop, t) => (.error stop, t) := by
  rw [Engine.readForm, Run.bind_apply]
  rcases a.run.form .code e.global content.toList s with ⟨stop | ⟨form, rest⟩, t⟩ <;> rfl

/-- A text of which the first form can be read starts with one. -/
theorem exists_reads_of_readForm (henv : e.global < s.frames.size) {form : Value}
    (h : e.readForm a content s = (.ok form, t)) :
    ∃ (d : Datum .form) (rest : Source), Reads content.toList d rest := by
  rw [readForm_apply] at h
  rcases hform : a.run.form .code e.global content.toList s with ⟨stop | ⟨f | v, rest⟩, u⟩ <;>
    rw [hform] at h
  · cases h
  · cases h
  · obtain ⟨d, hd, -, -⟩ := Mode.MayRead.exists_reads (.inr henv) hform
    exact ⟨d, rest, hd⟩

/-- A text that is not empty is evaluated by reading a form, evaluating it, and going on behind
it. -/
theorem evaluate_apply (hne : Source.skip content.toList ≠ []) :
    e.evaluate a content s =
      (a.run.form .code e.global content.toList >>= fun p => Run.ofExcept p.1 >>= fun form =>
        a.run (.eval form e.global) >>= fun v =>
          Run.evaluateFrom a.run e.global content.toList.length v p.2) s := by
  rw [Engine.evaluate, Run.evaluate, evaluateFrom_next _ _ hne, form_skip]

/-- Where the first form of a text cannot be read, nothing is evaluated. -/
theorem evaluate_of_readForm {stop : Stop} (hne : Source.skip content.toList ≠ [])
    (h : e.readForm a content s = (.error stop, t)) :
    e.evaluate a content s = (.error stop, t) := by
  rw [readForm_apply] at h
  rw [evaluate_apply hne, Run.bind_apply]
  rcases hread : a.run.form .code e.global content.toList s with ⟨stop' | ⟨form, rest⟩, u⟩ <;>
    rw [hread] at h
  · exact h
  · exact Run.bind_apply_error h

/-- Where a text starts with a form, this is read and evaluated, and evaluation goes on behind
it. -/
theorem evaluate_of_reads (henv : e.global < s.frames.size) {d : Datum .form}
    (hd : Reads content.toList d rest) : e.evaluate a content s =
      (e.evaluateForm a content >>= fun v =>
        Run.evaluateFrom a.run e.global content.toList.length v rest) s := by
  rw [evaluate_apply hd.skip_ne_nil, Engine.evaluateForm, bind_assoc, Run.bind_apply,
    Run.bind_apply (e.readForm a content), readForm_apply]
  rcases hread : a.run.form .code e.global content.toList s with ⟨stop | ⟨f | form, rest'⟩, t⟩
  · rfl
  · rfl
  · obtain ⟨d', hd', -, -⟩ := Mode.MayRead.exists_reads (.inr henv) hread
    obtain ⟨-, rfl⟩ := hd.unique hd'
    rfl

/-- A text that is one form is evaluated by reading and evaluating this form. -/
theorem evaluate_of_reads_all (henv : e.global < s.frames.size) {d : Datum .form}
    (hd : Reads content.toList d []) : e.evaluate a content s = e.evaluateForm a content s := by
  obtain ⟨n, hlength⟩ := Nat.exists_eq_add_one.mpr hd.length_lt
  have hrest : (fun v => Run.evaluateFrom a.run e.global content.toList.length v []) = pure := by
    rw [hlength]
    exact funext fun v => funext fun t => evaluateFrom_blank n v rfl
  rw [evaluate_of_reads henv hd, hrest, bind_pure]

/-- Where there is more behind the first form of a text, this is evaluated as a text. -/
theorem evaluate_of_reads_front (henv : e.global < s.frames.size) {d : Datum .form}
    (hd : Reads content.toList d rest) (hrest : rest.skip ≠ []) :
    e.evaluate a content s =
      (e.evaluateForm a content >>= fun _ => Run.evaluate a.run e.global rest) s := by
  have hmore : (fun v => Run.evaluateFrom a.run e.global content.toList.length v rest) =
      fun _ => Run.evaluate a.run e.global rest := by
    refine funext fun v => funext fun t => ?_
    have hfuel : Run.evaluateFrom a.run e.global content.toList.length v rest t =
        Run.evaluateFrom a.run e.global (rest.length + 1) v rest t :=
      evaluateFrom_fuel (run_settled [] a.rounds a.calls) hd.length_lt (Nat.lt_add_one _) v
    rw [hfuel, Run.evaluate]
    exact (evaluateFrom_next _ v hrest).trans (evaluateFrom_next _ .nil hrest).symm
  rw [evaluate_of_reads henv hd, hmore]

end FirstForm

/-! ### The forms of the lines, read as code -/

section Code

variable {rounds calls : Nat} {env : FrameId} {s t : Store} {vs : List Value}

/-- A form that can be read starts with no closing parenthesis, and not at the end. -/
theorem parse_token_ne {mode : Mode} {token : Token} {v : Value}
    (h : run rounds calls (.parse token mode env source) s = (.ok (.ok v, rest), t)) :
    token ≠ .rightParen ∧ token ≠ .endOfInput := by
  constructor <;> rintro rfl <;> cases calls <;> cases h

/-- Behind the head `progn`, all elements are code. -/
theorem inside_progn {symbol : Symbol} (hsymbol : symbol.keyword = some (.form .progn))
    {items : Array Value} (hitems : items[0]? = some (.symbol symbol)) :
    Mode.inside .code items = .code := by
  simp only [Mode.inside, hitems, Option.bind_some, Value.symbol?, Mode.behind, hsymbol]

/-- The forms that are read of a text one after the other are the elements of a list that the
parenthesis closes. -/
theorem elements_of_drains {symbol : Symbol} (hsymbol : symbol.keyword = some (.form .progn))
    (h : Drains (run rounds calls) env source s vs t) {items : Array Value}
    (hitems : items[0]? = some (.symbol symbol)) {bound : Source}
    (hbound : source.closed.length ≤ bound.length) :
    Run.Parsing.elements (run rounds calls) .code env bound items source.closed s =
      (.ok (.ok (items.toList ++ vs), []), t) := by
  induction h generalizing items bound with
  | done hskip =>
    rw [elements_close _ _ (Token.next_closed_of_end hskip) hbound, List.append_nil]
  | @form source rest s t u v vs hskip hform hothers ih =>
    obtain ⟨token, inner, hnext, hparse⟩ := form_eq_ok hform
    rw [Token.next_skip] at hnext
    obtain ⟨hclose, hend⟩ := parse_token_ne hparse
    have hnext' := Token.next_append_line [')'] hnext hend
    -- the form is read in the same way in front of the parenthesis
    have hextended := (run_settled [')'] rounds calls).extended token .code env inner s
    rw [Recur.parse, hparse] at hextended
    have hparse' : run rounds calls (.parse token .code env inner.closed) s =
        (.ok (.ok v, rest.closed), t) := hextended.resolve_left id
    obtain ⟨bound', hbound', heq⟩ :=
      elements_more .code env s hnext' hclose hend hbound items
    rw [inside_progn hsymbol hitems] at heq
    have hlt := Token.length_next_lt hnext hend
    have hle := (run_settled [')'] rounds calls).advances token .code env _ _ _ _ _ hparse
    -- the first form is an element, the other forms follow it by the hypothesis
    refine (heq _).trans ((Reading.bind_apply_ok hparse').trans ?_)
    rw [ih, Array.toList_push, List.append_assoc, List.singleton_append]
    · rw [Array.getElem?_push, if_neg, hitems]
      rintro hzero
      rw [Array.getElem?_eq_none (Nat.le_of_eq hzero.symm)] at hitems
      cases hitems
    · simp only [Source.closed, List.length_append, List.length_cons, List.length_nil] at hbound' ⊢
      omega

/-- The forms that are read of a text are the whole text. -/
theorem Drains.readsWhole (h : Drains (run rounds calls) env source s vs t)
    (henv : env < s.frames.size) : ∃ ds, ReadsWhole source ds := by
  induction h with
  | done hskip => exact ⟨.none, .none hskip⟩
  | form _ hform _ ih =>
    obtain ⟨d, hd, -, -⟩ := Mode.MayRead.exists_reads (.inr henv) hform
    obtain ⟨token, inner, -, hparse⟩ := form_eq_ok hform
    obtain ⟨ds, hds⟩ := ih (room_of_run hparse henv).1
    exact ⟨.more d ds, .more (hd.of_next (Token.next_skip _).symm) hds⟩

/-- A list in code that is headed by `progn` stands as it is, unless that names a macro. -/
theorem codeList_progn {symbol : Symbol} (hsymbol : symbol.keyword = some (.form .progn))
    (hplain : s.expander? env symbol = none) (self : Recur) :
    Run.Parsing.codeList self (.symbol symbol :: vs) env s =
      (.ok (s.addList (.symbol symbol :: vs)).1, (s.addList (.symbol symbol :: vs)).2) := by
  rw [Run.Parsing.codeList_apply]
  · -- no macro is named progn, and no list form of the reader's is
    have hcall : (s.addList (.symbol symbol :: vs)).1.isCall (s.expander? env) = false := by
      rw [Value.isCall, Store.head?_addList]
      show (s.expander? env symbol).isSome = false
      rw [hplain]
      rfl
    rw [hcall]
    rfl
  · rintro head ⟨⟩
    rw [Symbol.is, hsymbol]
    rfl

/-- The elements of a list depend on what their text starts with. -/
theorem elements_of_next (self : Recur) (mode : Mode) {source' : Source}
    (h : Token.next source = Token.next source') (c : Char) (bound : Source) (items : Array Value)
    (s : Store) : Run.Parsing.elements self mode env (c :: bound) items source s =
      Run.Parsing.elements self mode env (c :: bound) items source' s := by
  rw [Run.Parsing.elements, Reading.bind_apply, Reading.bind_apply, Reading.token_apply,
    Reading.token_apply, h]

theorem length_closed_le (lines : List String) :
    (linesText lines).closed.length ≤ (behindProgn lines).length := by
  rcases lines with - | ⟨line, lines⟩
  · exact Nat.le_refl _
  · rw [behindProgn, flatMap_lines, Source.closed]
    simp

/-- The symbol of `progn` in a store one nested step deeper, and that store. -/
def Store.internProgn (s : Store) (env : FrameId) : Symbol × Store :=
  (s.deepen env).intern env (Keyword.form .progn).spelling

theorem Store.keyword_internProgn (s : Store) (env : FrameId) :
    (s.internProgn env).1.keyword = some (.form .progn) :=
  keyword_intern_spelling _ _ _

/-- The text of lines that can be read as forms one after the other is read as the list of `progn`
and these forms. -/
theorem form_prognText {lines : List String} (hroom : (s.level (s.realmOf env)).HasRoom)
    (h : Drains (run rounds (calls + 1)) env (linesText lines) (s.internProgn env).2 vs t)
    (hplain : t.expander? env (s.internProgn env).1 = none) :
    (run rounds (calls + 2)).form .code env (Engine.prognText lines).toList s =
      (.ok (.ok (t.addList (.symbol (s.internProgn env).1 :: vs)).1, []),
        (t.addList (.symbol (s.internProgn env).1 :: vs)).2.riseIn (s.realmOf env)) := by
  obtain ⟨hopen, hhead⟩ := next_prognText lines
  have hsymbol := s.keyword_internProgn env
  generalize hnamed : s.internProgn env = named at *
  -- the first element is the symbol
  have hatom : run rounds (calls + 1) (.parse (.symbol "progn") .code env (behindProgn lines))
      (s.deepen env) = (.ok (.ok (.symbol named.1), behindProgn lines), named.2) := by
    refine (Reading.ofRun_apply _ _ _).trans ?_
    have hatom : named.1.atom = .symbol named.1 := by
      rw [Symbol.atom, hsymbol]
    have hintern : (s.deepen env).intern env "progn" = named := hnamed
    rw [Run.Parsing.atom_apply, hintern, hatom]
  obtain ⟨bound, hbound, hfirst⟩ := elements_more .code env
    (s.deepen env) hhead (by simp) (by simp) (Nat.le_refl _) #[]
  have hlength := length_closed_le lines
  have hpositive : 0 < (linesText lines).closed.length := by simp [Source.closed]
  rw [List.length_append] at hbound
  have hword : "progn".toList.length = 5 := rfl
  obtain ⟨c, bound, rfl⟩ := List.exists_cons_of_length_pos (by omega : 0 < bound.length)
  -- the lines' forms are the other elements
  have hothers : Run.Parsing.elements (run rounds (calls + 1)) .code env (c :: bound)
      #[.symbol named.1] (behindProgn lines) named.2 =
        (.ok (.ok (.symbol named.1 :: vs), []), t) := by
    rw [elements_of_next _ _ (next_behindProgn lines)]
    exact elements_of_drains hsymbol h rfl (by omega)
  -- the list is closed at the end of the pasted text
  have hlist : Run.Parsing.list (run rounds (calls + 1)) .code env
      ("progn".toList ++ behindProgn lines) (s.deepen env) =
        (.ok (.ok (t.addList (.symbol named.1 :: vs)).1, []),
          (t.addList (.symbol named.1 :: vs)).2) := by
    refine (Reading.bind_apply_ok rfl).trans ?_
    have hrest := (hfirst _).trans ((Reading.bind_apply_ok hatom).trans hothers)
    refine (Reading.bind_apply_ok hrest).trans ?_
    refine (Reading.ofRun_apply _ _ _).trans ?_
    rw [codeList_progn hsymbol hplain]
  rw [form_apply _ _ hopen, Run.run_parse_list hroom, hlist]

end Code

/-! ### Main result -/

/-- Lines as the body of one `progn`, in the four parts of what is known of them.

* If the lines are forms up to their end, the text in which they are evaluated is one form, the
  list of `progn` and these forms.  This form is read and evaluated, and nothing else is.
* If moreover the forms can be read one after the other, with `progn` interned and one step deeper,
  what is evaluated is the list of `progn` and the forms read, unless `progn` names a macro.
* If the lines are forms up to a closing parenthesis that opens nowhere, the list ends there.  It is
  evaluated, and then all that is behind it.
* Otherwise the first form cannot be read, and none is evaluated. -/
theorem lines_as_progn (a : Allowance) (e : Engine) (lines : List String) (s : Store)
    (henv : e.global < s.frames.size) :
    (∀ ds, ReadsWhole (linesText lines) ds →
      Reads (Engine.prognText lines).toList (.list (.more (.symbol "progn") ds)) [] ∧
        e.evaluateLines a lines s = e.evaluateForm a (Engine.prognText lines) s) ∧
    (∀ calls vs t, a.calls = calls + 2 → 0 < s.room e.global →
      Drains (run a.rounds (calls + 1)) e.global (linesText lines) (s.internProgn e.global).2 vs t →
      t.expander? e.global (s.internProgn e.global).1 = none →
      let list := t.addList (.symbol (s.internProgn e.global).1 :: vs)
      e.readForm a (Engine.prognText lines) s =
          (.ok list.1, list.2.riseIn (s.realmOf e.global)) ∧
        e.evaluateLines a lines s =
          a.run (.eval list.1 e.global) (list.2.riseIn (s.realmOf e.global))) ∧
    (∀ ds behind, Reads (linesText lines) ds behind →
      Reads (Engine.prognText lines).toList (.list (.more (.symbol "progn") ds)) behind.closed ∧
        e.evaluateLines a lines s = (e.evaluateForm a (Engine.prognText lines) >>= fun _ =>
          Run.evaluate a.run e.global behind.closed) s) ∧
    ((¬ ∃ ds, ReadsWhole (linesText lines) ds) →
      (¬ ∃ (ds : Datum .items) (behind : Source), Reads (linesText lines) ds behind) →
      ∃ stop t, e.readForm a (Engine.prognText lines) s = (.error stop, t) ∧
        e.evaluateLines a lines s = (.error stop, t)) := by
  have hwhole : ∀ ds, ReadsWhole (linesText lines) ds →
      Reads (Engine.prognText lines).toList (.list (.more (.symbol "progn") ds)) [] :=
    fun ds h => reads_prognText.mpr ⟨ds, rfl, h.closed⟩
  refine ⟨fun ds h => ⟨hwhole ds h, evaluate_of_reads_all henv (hwhole ds h)⟩, ?_, ?_, ?_⟩
  · intro calls vs t hcalls hroom hdrains hplain list
    -- forms that the loop reads one by one are the body of the one list read
    obtain ⟨ds, hds⟩ := hdrains.readsWhole henv
    have hread : e.readForm a (Engine.prognText lines) s =
        (.ok list.1, list.2.riseIn (s.realmOf e.global)) := by
      have hform := form_prognText (Store.hasRoom_iff.mpr hroom) hdrains hplain
      rw [← hcalls] at hform
      have hrun : a.run.form .code e.global (Engine.prognText lines).toList s = _ := hform
      rw [readForm_apply, hrun]
      rfl
    refine ⟨hread, (evaluate_of_reads_all henv (hwhole ds hds)).trans ?_⟩
    rw [Engine.evaluateForm, Run.bind_apply_ok hread]
  · intro ds behind h
    -- a closing parenthesis in the lines ends the list, and the text behind it is evaluated too
    have hreads : Reads (Engine.prognText lines).toList _ behind.closed :=
      reads_prognText.mpr ⟨ds, rfl, h.closed⟩
    refine ⟨hreads, evaluate_of_reads_front henv hreads ?_⟩
    rw [Source.closed, Source.skip_append_line]
    split
    · exact nofun
    · exact List.append_ne_nil_of_right_ne_nil _ (List.cons_ne_nil _ _)
  · intro hnone hopen
    -- neither way to end the list: the one form cannot be read, and its fault is the answer
    have hne : Source.skip (Engine.prognText lines).toList ≠ [] := by
      rw [toList_prognText, Source.skip_other (by decide) (by decide)]
      exact List.cons_ne_nil _ _
    rcases hread : e.readForm a (Engine.prognText lines) s with ⟨stop | form, t⟩
    · exact ⟨stop, t, rfl, evaluate_of_readForm hne hread⟩
    · obtain ⟨d, rest, hd⟩ := exists_reads_of_readForm henv hread
      obtain ⟨ds, -, hds⟩ := reads_prognText.mp hd
      rcases reads_closed_iff.mp hds with ⟨hds, -⟩ | ⟨behind, hds, -⟩
      · exact absurd ⟨ds, hds⟩ hnone
      · exact absurd ⟨ds, behind, hds⟩ hopen

/-- A list that is not closed is no form. -/
theorem not_reads_of_unclosed {d : Datum .form} : ¬ Reads ['(', 't'] d rest := by
  have hatom : Token.next ['t'] = (.ok (.symbol "t"), []) := by decide +kernel
  intro h
  cases h with
  | number h | text h | symbol h | quote h _ => cases (Token.next_leftParen ['t']).symm.trans h
  | list h hitems =>
    cases (Token.next_leftParen ['t']).symm.trans h
    cases hitems with
    | none h => cases hatom.symm.trans h
    | more hd hds =>
      obtain ⟨-, rfl⟩ := hd.unique (.symbol hatom)
      exact absurd hds.length_lt (Nat.not_lt_zero _)

/-- Of two texts of lines, the first one holds two forms and a comment with a parenthesis, and the
second one a list that is not closed. -/
theorem lines_as_progn_of_comment :
    let s := ((Store.empty .empty).addRealm .preserve 9).2
    let e : Engine := ⟨0, 0⟩
    let a : Allowance := ⟨9, 9⟩
    let progn : Symbol := ⟨0, 0, "progn", some (.form .progn)⟩
    let form : Value := .cons 2 (.symbol progn) (.cons 1 .t (.cons 0 .nil .nil))
    e.global < s.frames.size ∧
      ReadsWhole (linesText ["t ; (", "nil"]) (.more (.symbol "t") (.more (.symbol "nil") .none)) ∧
      (∃ t, e.readForm a (Engine.prognText ["t ; (", "nil"]) s = (.ok form, t) ∧
        e.evaluateLines a ["t ; (", "nil"] s = a.run (.eval form e.global) t) ∧
      ∃ stop t, e.evaluateLines a ["(t"] s = (.error stop, t) := by
  intro s e a progn form
  have henv : e.global < s.frames.size := by decide
  have hroom : 0 < s.room e.global := by decide
  have hcalls : a.calls = 7 + 2 := rfl
  have hwhole : ReadsWhole (linesText ["t ; (", "nil"])
      (.more (.symbol "t") (.more (.symbol "nil") .none)) :=
    .more (.symbol (by decide +kernel : _ = (_, " ; (\nnil".toList)))
      (.more (.symbol (by decide +kernel : _ = (_, []))) (.none rfl))
  -- the forms are read one after the other, one step deeper
  let read := Run.readAll (run a.rounds 8) e.global (linesText ["t ; (", "nil"])
    (s.internProgn e.global).2
  have hforms : read.1 = .ok (.ok [.t, .nil], []) := by decide +kernel
  have hplain : read.2.expander? e.global (s.internProgn e.global).1 = none := by decide +kernel
  have hform : (read.2.addList [.symbol (s.internProgn e.global).1, .t, .nil]).1 = form := by
    decide +kernel
  have hread : Run.readAll (run a.rounds 8) e.global (linesText ["t ; (", "nil"])
    (s.internProgn e.global).2 = read := rfl
  -- the second text has no first form
  have hline : linesText ["(t"] = ['(', 't'] := by decide +kernel
  clear_value read s e a form
  obtain ⟨r, t⟩ := read
  obtain rfl : r = _ := hforms
  obtain ⟨hread, heval⟩ := (lines_as_progn a e ["t ; (", "nil"] s henv).2.1 7 _ t hcalls hroom
    (drains_of_readAll hread) hplain
  rw [hform] at hread heval
  have hfails := (lines_as_progn a e ["(t"] s henv).2.2.2
  rw [hline] at hfails
  obtain ⟨stop, t, -, hstop⟩ := hfails
    (by
      rintro ⟨ds, h⟩
      cases h with
      | none h => cases h
      | more hd _ => exact not_reads_of_unclosed hd)
    (by
      rintro ⟨ds, behind, h⟩
      cases h with
      | none h => cases (Token.next_leftParen ['t']).symm.trans h
      | more hd _ => exact not_reads_of_unclosed hd)
  exact ⟨henv, hwhole, ⟨_, hread, heval⟩, stop, t, hstop⟩

/-- A parenthesis that opens nowhere closes the list of `progn`, and what is behind it is evaluated
as well, though the lines are no sequence of forms. -/
theorem lines_close_progn :
    let s := ((Store.empty .empty).addRealm .preserve 9).2
    let e : Engine := ⟨0, 0⟩
    let a : Allowance := ⟨9, 9⟩
    let lines := ["t) (define y t"]
    (¬ ∃ ds, ReadsWhole (linesText lines) ds) ∧ (e.evaluateLines a lines s).1 = .ok .t ∧
      ((e.evaluateLines a lines s).2.boundSymbols 0).map Symbol.name = ["y"] := by
  intro s e a lines
  have hreads : Reads (linesText lines) (.more (.symbol "t") .none) " (define y t".toList :=
    .more (.symbol (by decide +kernel : _ = (_, ") (define y t".toList)))
      (.none (by decide +kernel))
  exact ⟨fun ⟨ds, hds⟩ => hreads.not_whole hds, by decide +kernel, by decide +kernel⟩

end PocketLisp
