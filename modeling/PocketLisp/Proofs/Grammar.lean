/-
PocketLisp/Proofs/Grammar.lean

The grammar of data, and what reading makes of it.

A `Datum` is a form as it is written, or the elements of a list.  `Reads` is
the grammar: which part of a text is which datum, and what is left behind it.
`Datum.build` is what a datum stands for in a store: its atoms are interned
and its cells and texts made in the order in which they are written.

Main results: reading as data follows every derivation of the grammar for which
there is room (`Reads.dataRead`); wherever reading succeeds, also as code, there
is a derivation of what it has taken from the text (`Mode.MayRead.exists_reads`,
and for data `reads_of_form`).
-/
import PocketLisp.Proofs.Later
import PocketLisp.Proofs.Lexing

namespace PocketLisp

/-! ### Data -/

/-- What a part of a text is: a form, or the elements of a list with its closing parenthesis. -/
inductive Part where
  | form
  | items
  deriving DecidableEq, Repr

/-- Forms as they are written, and the elements of lists. -/
inductive Datum : Part → Type
  | number (x : Float) : Datum .form
  | text (content : String) : Datum .form
  /-- an atom that is no number -/
  | symbol (name : String) : Datum .form
  /-- a quote mark and a form -/
  | quote (d : Datum .form) : Datum .form
  /-- a list in parentheses -/
  | list (ds : Datum .items) : Datum .form
  | none : Datum .items
  | more (d : Datum .form) (ds : Datum .items) : Datum .items

namespace Datum

/-- How deeply lists are nested. -/
def nesting : {p : Part} → Datum p → Nat
  | _, .quote d => d.nesting
  | _, .list ds => ds.nesting + 1
  | _, .more d ds => max d.nesting ds.nesting
  | _, .number _ | _, .text _ | _, .symbol _ | _, .none => 0

/-- How many calls are active at the same time while a part is read. -/
def calls : {p : Part} → Datum p → Nat
  | _, .number _ | _, .text _ | _, .symbol _ => 1
  | _, .quote d => d.calls + 1
  | _, .list ds => ds.calls + 1
  | _, .none => 0
  | _, .more d ds => max d.calls ds.calls

end Datum

/-- The derivations of the grammar: the text at the front of a source, and what is left. -/
inductive Reads : {p : Part} → Source → Datum p → Source → Prop
  | number {source rest x} : Token.next source = (.ok (.number x), rest) →
      Reads source (.number x) rest
  | text {source rest content} : Token.next source = (.ok (.text content), rest) →
      Reads source (.text content) rest
  | symbol {source rest name} : Token.next source = (.ok (.symbol name), rest) →
      Reads source (.symbol name) rest
  | quote {source inner rest d} : Token.next source = (.ok .quote, inner) → Reads inner d rest →
      Reads source (.quote d) rest
  | list {source inner rest ds} : Token.next source = (.ok .leftParen, inner) →
      Reads inner ds rest → Reads source (.list ds) rest
  | none {source rest} : Token.next source = (.ok .rightParen, rest) → Reads source .none rest
  | more {source inner rest d ds} : Reads source d inner → Reads inner ds rest →
      Reads source (.more d ds) rest

namespace Reads

variable {p : Part} {source rest : Source}

/-- Every part takes a character at least. -/
theorem length_lt {d : Datum p} (h : Reads source d rest) : rest.length < source.length := by
  induction h with
  | number h | text h | symbol h | none h => exact Token.length_next_lt h nofun
  | quote h _ ih | list h _ ih => exact Nat.lt_trans ih (Token.length_next_lt h nofun)
  | more _ _ ih ih' => exact Nat.lt_trans ih' ih

/-- What a source starts with depends on its first token only. -/
theorem of_next {source' : Source} {d : Datum p} (h : Reads source d rest)
    (hnext : Token.next source' = Token.next source) : Reads source' d rest := by
  induction h with
  | number h => exact .number (hnext.trans h)
  | text h => exact .text (hnext.trans h)
  | symbol h => exact .symbol (hnext.trans h)
  | quote h hinner _ => exact .quote (hnext.trans h) hinner
  | list h hinner _ => exact .list (hnext.trans h) hinner
  | none h => exact .none (hnext.trans h)
  | more _ hothers ih _ => exact .more (ih hnext) hothers

/-- A form starts with a token that neither closes a list nor ends the text. -/
theorem next_form {d : Datum .form} (h : Reads source d rest) :
    ∃ token inner, Token.next source = (.ok token, inner) ∧ token ≠ .rightParen ∧
      token ≠ .endOfInput := by
  cases h with
  | number h | text h | symbol h | quote h _ | list h _ => exact ⟨_, _, h, nofun, nofun⟩

/-- No form starts with a closing parenthesis. -/
theorem not_rightParen {d : Datum .form} (h : Reads source d rest) {inner : Source} :
    Token.next source ≠ (.ok .rightParen, inner) := by
  obtain ⟨token, start, hnext, hclose, -⟩ := h.next_form
  rw [hnext]
  rintro ⟨⟩
  exact hclose rfl

/-- A text starts with one form at most, and with the elements of one list. -/
theorem unique {d d' : Datum p} {rest' : Source} (h : Reads source d rest)
    (h' : Reads source d' rest') : d = d' ∧ rest = rest' := by
  -- the first token of the text decides the rule, so both derivations end in the same one
  induction h generalizing rest' with
  | number h | text h | symbol h =>
    cases h' with
    | number h' | text h' | symbol h' | quote h' | list h' =>
      cases h.symm.trans h' <;> exact ⟨rfl, rfl⟩
  | quote h _ ih =>
    cases h' with
    | quote h' hinner =>
      cases h.symm.trans h'
      obtain ⟨rfl, rfl⟩ := ih hinner
      exact ⟨rfl, rfl⟩
    | number h' | text h' | symbol h' | list h' => cases h.symm.trans h'
  | list h _ ih =>
    cases h' with
    | list h' hinner =>
      cases h.symm.trans h'
      obtain ⟨rfl, rfl⟩ := ih hinner
      exact ⟨rfl, rfl⟩
    | number h' | text h' | symbol h' | quote h' => cases h.symm.trans h'
  | none h =>
    -- an element never starts with the parenthesis that ends the list
    cases h' with
    | none h' =>
      cases h.symm.trans h'
      exact ⟨rfl, rfl⟩
    | more hd => exact absurd h hd.not_rightParen
  | more hd _ ih ih' =>
    cases h' with
    | none h' => exact absurd h' hd.not_rightParen
    | more hd' hds' =>
      obtain ⟨rfl, rfl⟩ := ih hd'
      obtain ⟨rfl, rfl⟩ := ih' hds'
      exact ⟨rfl, rfl⟩

end Reads

/-! ### What data stands for -/

/-- The value of the atom that a symbol is the name of. -/
def Symbol.atom (s : Symbol) : Value :=
  match s.keyword with
  | some .nil => .nil
  | some .t => .t
  | _ => .symbol s

namespace Store

/-- A new text. -/
def addText (s : Store) (content : String) : Value × Store :=
  (.text s.nextId content, { s with nextId := s.nextId + 1 })

/-- A new list. -/
def addList (s : Store) (items : List Value) : Value × Store :=
  ((Value.chain s.nextId items.reverse .nil).1,
    { s with nextId := (Value.chain s.nextId items.reverse .nil).2 })

theorem blind_addText (content : String) : Blind fun s => s.addText content :=
  blind_of_realms fun _ _ => rfl

theorem blind_addList (items : List Value) : Blind fun s => s.addList items :=
  blind_of_realms fun _ _ => rfl

end Store

/-- What reading a part results in. -/
abbrev Part.Result : Part → Type
  | .form => Value
  | .items => List Value

namespace Datum

variable {p : Part} {env : FrameId}

/-- What a part stands for in a store. -/
def build (env : FrameId) : {p : Part} → Datum p → Store → p.Result × Store
  | _, .number x, s => (.number x, s)
  | _, .text content, s => s.addText content
  | _, .symbol name, s => ((s.intern env name).1.atom, (s.intern env name).2)
  | _, .quote d, s =>
    let built := d.build env s
    let named := built.2.intern env (Keyword.form .quote).spelling
    named.2.addList [.symbol named.1, built.1]
  | _, .list ds, s =>
    let built := ds.build env s
    built.2.addList built.1
  | _, .none, s => ([], s)
  | _, .more d ds, s =>
    let first := d.build env s
    let others := ds.build env first.2
    (first.1 :: others.1, others.2)

/-- Building data neither depends on the nesting nor changes it. -/
theorem blind_build (d : Datum p) : Store.Blind (d.build env) := by
  induction d with
  | number x => exact Store.blind_of_realms fun _ _ => rfl
  | none => exact Store.blind_of_realms fun _ _ => rfl
  | text content => exact Store.blind_addText content
  | symbol name =>
    refine (Store.harmless_intern env name).toBlind.seq (g := fun symbol s => (symbol.atom, s)) ?_
    exact fun symbol => Store.blind_of_realms fun _ _ => rfl
  | quote d ih =>
    -- built inside out: the form, the name QUOTE, the list of the two
    refine ih.seq (g := fun v s => (s.intern env (Keyword.form .quote).spelling).2.addList
      [.symbol (s.intern env (Keyword.form .quote).spelling).1, v]) fun v => ?_
    refine (Store.harmless_intern env _).toBlind.seq
      (g := fun symbol s => s.addList [.symbol symbol, v]) fun symbol => ?_
    exact Store.blind_addList _
  | list ds ih => exact ih.seq fun vs => Store.blind_addList vs
  | more d ds ih ih' =>
    refine ih.seq (g := fun v s => (v :: (ds.build env s).1, (ds.build env s).2)) fun v => ?_
    refine ih'.seq (g := fun vs s => (v :: vs, s)) fun vs => ?_
    exact Store.blind_of_realms fun _ _ => rfl

/-- Building data changes no frame. -/
theorem frames_build (d : Datum p) (s : Store) : (d.build env s).2.frames = s.frames := by
  induction d generalizing s with
  | number x | none | text content | symbol name => rfl
  | quote d ih | list ds ih => exact ih s
  | more d ds ih ih' => exact (ih' _).trans (ih s)

/-- Building data takes no room. -/
theorem room_build (d : Datum p) (s : Store) : (d.build env s).2.room env = s.room env := by
  have hrealm : (d.build env s).2.realmOf env = s.realmOf env := by
    simp only [Store.realmOf, Store.frame, frames_build]
  simp only [Store.room, hrealm, d.blind_build.level]

end Datum

/-! ### Reading follows the grammar -/

namespace Run

theorem intern_apply (env : FrameId) (name : String) (s : Store) :
    Run.intern env name s = (.ok (s.intern env name).1, (s.intern env name).2) := rfl

theorem ofFresh_list (items : List Value) (s : Store) :
    Run.ofFresh (Fresh.list items) s = (.ok (s.addList items).1, (s.addList items).2) := rfl

namespace Parsing

theorem atom_apply (name : String) (env : FrameId) (s : Store) :
    atom name env s = (.ok (s.intern env name).1.atom, (s.intern env name).2) := by
  rw [atom, Run.bind_apply_ok (Run.intern_apply env name s)]
  simp only [Symbol.atom]
  rcases (s.intern env name).1.keyword with - | k
  · rfl
  · cases k <;> rfl

theorem quoted_apply (v : Value) (env : FrameId) (s : Store) :
    quoted v env s =
      let named := s.intern env (Keyword.form .quote).spelling
      (.ok (named.2.addList [.symbol named.1, v]).1, (named.2.addList [.symbol named.1, v]).2) :=
  rfl

end Parsing

/-- A form that is no list is read without a nested step. -/
theorem run_parse {rounds calls : Nat} {token : Token} (ht : token ≠ .leftParen) (mode : Mode)
    (env : FrameId) (source : Source) (s : Store) :
    run rounds (calls + 1) (.parse token mode env source) s =
      Run.Parsing.form (run rounds calls) token mode env source s := by
  cases token with
  | leftParen => exact absurd rfl ht
  | _ => rfl

/-- A list is read in a nested step. -/
theorem run_parse_list {rounds calls : Nat} {mode : Mode} {env : FrameId} {source : Source}
    {s : Store} (h : (s.level (s.realmOf env)).HasRoom) :
    run rounds (calls + 1) (.parse .leftParen mode env source) s =
      ((Run.Parsing.list (run rounds calls) mode env source (s.deepen env)).1,
        (Run.Parsing.list (run rounds calls) mode env source (s.deepen env)).2.riseIn
          (s.realmOf env)) := by
  have hs : s.depthFault? env = none := Store.depthFault?_eq_none_iff.mpr h
  simp only [run, Call.nested, Call.nestsIn?, hs]
  rfl

/-- A list that would be nested too deeply is not read. -/
theorem run_parse_refused {rounds calls : Nat} {mode : Mode} {env : FrameId} {source : Source}
    {s : Store} (h : ¬ (s.level (s.realmOf env)).HasRoom) :
    run rounds (calls + 1) (.parse .leftParen mode env source) s =
      (.ok (.error (.stackExhausted (s.level (s.realmOf env)).limit), source), s) := by
  simp only [run, Call.nested, Call.nestsIn?, Store.depthFault?_of_no_room h]
  rfl

end Run

/-- Reading a part as data in a store has this result, leaves this rest, and ends in this store. -/
def DataRead (self : Recur) (env : FrameId) (source : Source) (s : Store) :
    (p : Part) → p.Result → Source → Store → Prop
  | .form, v, rest, t => self.form .data env source s = (.ok (.ok v, rest), t)
  | .items, vs, rest, t => ∀ (bound : Source) (items : Array Value),
      source.length ≤ bound.length →
        Run.Parsing.elements self .data env bound items source s =
          (.ok (.ok (items.toList ++ vs), rest), t)

section Following

variable {p : Part} {source rest inner : Source} {env : FrameId} {rounds calls : Nat} {s : Store}

/-- Reading the next form takes its first token and goes on behind it. -/
theorem form_apply (self : Recur) (mode : Mode) {token : Token}
    (h : Token.next source = (.ok token, inner)) :
    self.form mode env source s = self (.parse token mode env inner) s := by
  exact Reading.bind_apply_ok (Reading.token_of_next h s)

/-- The parenthesis that closes a list ends its elements. -/
theorem elements_close (self : Recur) (mode : Mode)
    (h : Token.next source = (.ok .rightParen, inner)) {bound : Source}
    (hbound : source.length ≤ bound.length) (items : Array Value) :
    Run.Parsing.elements self mode env bound items source s =
      (.ok (.ok items.toList, inner), s) := by
  have hlt := Token.length_next_lt h nofun
  obtain ⟨c, bound, rfl⟩ := List.exists_cons_of_length_pos (by omega : 0 < bound.length)
  exact Reading.bind_apply_ok (Reading.token_of_next h s)

/-- Any other token that does not end the text starts an element. -/
theorem elements_step (self : Recur) (mode : Mode) (env : FrameId) (s : Store) {token : Token}
    (h : Token.next source = (.ok token, inner)) (hclose : token ≠ .rightParen)
    (hend : token ≠ .endOfInput) (c : Char) (bound : Source) (items : Array Value) :
    Run.Parsing.elements self mode env (c :: bound) items source s =
      (self.parse token (mode.inside items) env >>= fun v =>
        Run.Parsing.elements self mode env bound (items.push v)) inner s := by
  refine (Reading.bind_apply_ok (Reading.token_of_next h s)).trans ?_
  cases token with
  | rightParen => exact absurd rfl hclose
  | endOfInput => exact absurd rfl hend
  | _ => rfl

/-- There are as many elements at most as the bound has characters, so it is not used up. -/
theorem elements_more (mode : Mode) (env : FrameId) (s : Store) {token : Token}
    (h : Token.next source = (.ok token, inner)) (hclose : token ≠ .rightParen)
    (hend : token ≠ .endOfInput) {bound : Source} (hbound : source.length ≤ bound.length)
    (items : Array Value) :
    ∃ bound', source.length ≤ bound'.length + 1 ∧ ∀ self : Recur,
      Run.Parsing.elements self mode env bound items source s =
        (self.parse token (mode.inside items) env >>= fun v =>
          Run.Parsing.elements self mode env bound' (items.push v)) inner s := by
  have hlt := Token.length_next_lt h hend
  obtain ⟨c, bound, rfl⟩ := List.exists_cons_of_length_pos (by omega : 0 < bound.length)
  exact ⟨bound, hbound, fun self => elements_step self mode env s h hclose hend c bound items⟩

/-- Reading as data does what the grammar says, where there is room for the lists and there are
calls enough. -/
theorem Reads.dataRead {d : Datum p} (h : Reads source d rest) (hcalls : d.calls ≤ calls)
    (hroom : d.nesting ≤ s.room env) :
    DataRead (run rounds calls) env source s p (d.build env s).1 rest (d.build env s).2 := by
  induction h generalizing calls s with
  | number h | text h =>
    obtain ⟨n, rfl⟩ := Nat.exists_eq_add_one.mpr hcalls
    exact form_apply _ _ h
  | symbol h =>
    obtain ⟨n, rfl⟩ := Nat.exists_eq_add_one.mpr hcalls
    refine ((form_apply _ _ h).trans (Run.run_parse (by simp) ..)).trans ?_
    refine (Reading.ofRun_apply _ _ s).trans ?_
    rw [Run.Parsing.atom_apply]
    rfl
  | quote h _ ih =>
    obtain ⟨n, rfl⟩ := Nat.exists_eq_add_one.mpr (Nat.lt_of_lt_of_le (Nat.succ_pos _) hcalls)
    refine ((form_apply _ _ h).trans (Run.run_parse (by simp) ..)).trans ?_
    exact Reading.bind_apply_ok (ih (Nat.le_of_succ_le_succ hcalls) hroom)
  | @list _ inner rest ds h hinner ih =>
    obtain ⟨n, rfl⟩ := Nat.exists_eq_add_one.mpr (Nat.lt_of_lt_of_le (Nat.succ_pos _) hcalls)
    have hdeep : (s.level (s.realmOf env)).HasRoom :=
      Store.hasRoom_iff.mpr (Nat.lt_of_lt_of_le (Nat.succ_pos _) hroom)
    refine (form_apply _ _ h).trans ?_
    rw [Run.run_parse_list hdeep]
    -- the elements are read one step deeper, where there is room for one nested list less
    have hitems : DataRead (run rounds n) env inner (s.deepen env) .items _ rest _ :=
      ih (Nat.le_of_succ_le_succ hcalls) (by
        rw [Store.room_deepen hdeep]
        exact Nat.le_sub_one_of_lt hroom)
    -- building does not see the nesting, so the step can be given back after it
    obtain ⟨hresult, hstore⟩ := (Datum.list ds).blind_build.nested hdeep
    have hlist : Run.Parsing.list (run rounds n) .data env inner (s.deepen env) =
        (.ok (.ok ((Datum.list ds).build env s).1, rest),
          ((Datum.list ds).build env (s.deepen env)).2) := by
      rw [← hresult]
      exact Reading.bind_apply_ok (hitems inner #[] (Nat.le_refl _))
    rw [hlist]
    exact Prod.ext rfl hstore
  | none h =>
    intro bound items hbound
    rw [elements_close _ _ h hbound, Datum.build, List.append_nil]
  | @more _ inner rest d ds h _ ih ih' =>
    intro bound items hbound
    obtain ⟨token, start, htoken, hclose, hend⟩ := h.next_form
    obtain ⟨bound', hbound', heq⟩ :=
      elements_more .data env s htoken hclose hend hbound items
    have hfirst : (run rounds calls).form .data env _ s = _ :=
      ih (Nat.le_trans (Nat.le_max_left ..) hcalls) (Nat.le_trans (Nat.le_max_left ..) hroom)
    rw [form_apply _ _ htoken] at hfirst
    rw [heq]
    refine (Reading.bind_apply_ok hfirst).trans ?_
    have hothers := ih' (s := (d.build env s).2) (Nat.le_trans (Nat.le_max_right ..) hcalls)
      (by rw [Datum.room_build]; exact Nat.le_trans (Nat.le_max_right ..) hroom)
    refine (hothers bound' (items.push _) ?_).trans ?_
    · have hlt := h.length_lt
      omega
    · simp [Datum.build]

/-- Where a reading succeeds that goes on behind a first part, the first part succeeds. -/
theorem Reading.bind_eq_ok {α β : Type} {m : Reading α} {k : α → Reading β} {b : β} {t : Store}
    (h : (m >>= k) source s = (.ok (.ok b, rest), t)) :
    ∃ a middle s', m source s = (.ok (.ok a, middle), s') ∧
      k a middle s' = (.ok (.ok b, rest), t) := by
  rcases hm : m source s with ⟨e | ⟨f | a, middle⟩, s'⟩
  · rw [Reading.bind_apply_stop hm] at h
    cases h
  · rw [Reading.bind_apply_fault hm] at h
    cases h
  · rw [Reading.bind_apply_ok hm] at h
    exact ⟨a, middle, s', rfl, h⟩

/-- Where reading a form succeeds, its first token is one that starts a form. -/
theorem form_eq_ok {self : Recur} {mode : Mode} {v : Value} {t : Store}
    (h : self.form mode env source s = (.ok (.ok v, rest), t)) :
    ∃ token inner, Token.next source = (.ok token, inner) ∧
      self (.parse token mode env inner) s = (.ok (.ok v, rest), t) := by
  obtain ⟨token, inner, s', htoken, hparse⟩ := Reading.bind_eq_ok h
  have hnext : Token.next source = (.ok token, inner) := Except.ok.inj (congrArg Prod.fst htoken)
  have hstore : s = s' := congrArg Prod.snd htoken
  exact ⟨token, inner, hnext, hstore ▸ hparse⟩

/-- What a derivation says is what is read. -/
theorem Reads.eq_of_form {d : Datum .form} (h : Reads source d inner) (hcalls : d.calls ≤ calls)
    (hroom : d.nesting ≤ s.room env) {v : Value} {t : Store}
    (hread : (run rounds calls).form .data env source s = (.ok (.ok v, rest), t)) :
    rest = inner ∧ v = (d.build env s).1 ∧ t = (d.build env s).2 := by
  have hdata : (run rounds calls).form .data env source s = _ := h.dataRead hcalls hroom
  rw [hdata] at hread
  cases hread
  exact ⟨rfl, rfl, rfl⟩

/-- A run in a reading takes nothing from the text. -/
theorem Reading.ofRun_eq_ok {α : Type} {m : Run α} {a : α} {t : Store}
    (h : Reading.ofRun m source s = (.ok (.ok a, rest), t)) : rest = source := by
  rw [Reading.ofRun_apply] at h
  rcases hm : m s with ⟨(f | _) | b, u⟩ <;> rw [hm] at h <;> cases h
  rfl

/-- Data can be read in any frame; code can be read in a frame that is there. -/
def Mode.MayRead (mode : Mode) (env : FrameId) (s : Store) : Prop :=
  mode = .data ∨ env < s.frames.size

namespace Mode.MayRead

variable {mode : Mode} (hmode : mode.MayRead env s)
include hmode

/-- In data there is only data. -/
theorem inside (items : Array Value) : (mode.inside items).MayRead env s := by
  rcases hmode with rfl | henv
  · exact .inl rfl
  · exact .inr henv

theorem later {token : Token} {r : Except Stop (Except Fault Value × Source)} {mode' : Mode}
    {t : Store} (h : run rounds calls (.parse token mode' env source) s = (r, t)) :
    mode.MayRead env t :=
  hmode.imp_right fun henv => (room_of_run h henv).1

/-- A form that is read leaves as much room as there was. -/
theorem room_eq {d : Datum .form} (hd : Reads source d inner) (hcalls : d.calls ≤ calls)
    (hroom : d.nesting ≤ s.room env) {v : Value} {t : Store}
    (h : (run rounds calls).form mode env source s = (.ok (.ok v, rest), t)) :
    t.room env = s.room env := by
  rcases hmode with rfl | henv
  · obtain ⟨-, -, rfl⟩ := hd.eq_of_form hcalls hroom h
    exact d.room_build s
  · obtain ⟨token, start, -, hparse⟩ := form_eq_ok h
    exact (room_of_run hparse henv).2

end Mode.MayRead

/-- The elements of a list that are read have a derivation if forms have. -/
theorem reads_of_elements
    (hform : ∀ {mode source rest s}, mode.MayRead env s → ∀ {v t},
      (run rounds calls).form mode env source s = (.ok (.ok v, rest), t) →
        ∃ d : Datum .form, Reads source d rest ∧ d.calls ≤ calls ∧ d.nesting ≤ s.room env)
    {mode : Mode} (hmode : mode.MayRead env s) {bound : Source} {items : Array Value}
    {vs : List Value} {t : Store}
    (h : Run.Parsing.elements (run rounds calls) mode env bound items source s =
      (.ok (.ok vs, rest), t)) :
    ∃ ds : Datum .items, Reads source ds rest ∧ ds.calls ≤ calls ∧ ds.nesting ≤ s.room env := by
  induction bound generalizing items source s with
  | nil => cases h
  | cons c bound ih =>
    obtain ⟨token, inner, s', htoken, hrest⟩ := Reading.bind_eq_ok h
    have hnext : Token.next source = (.ok token, inner) :=
      Except.ok.inj (congrArg Prod.fst htoken)
    obtain rfl : s = s' := congrArg Prod.snd htoken
    -- stated for any continuation, for all tokens that start an element alike
    have hmore : ∀ {k : Value → Reading (List Value)},
        (k = fun v => Run.Parsing.elements (run rounds calls) mode env bound (items.push v)) →
        ((run rounds calls).parse token (mode.inside items) env >>= k) inner s =
          (.ok (.ok vs, rest), t) →
        ∃ ds : Datum .items, Reads source ds rest ∧ ds.calls ≤ calls ∧
          ds.nesting ≤ s.room env := by
      rintro k rfl hk
      obtain ⟨v, middle, s', hparse, hothers⟩ := Reading.bind_eq_ok hk
      have hread := (form_apply (run rounds calls) (mode.inside items) hnext).trans hparse
      obtain ⟨d, hd, hcalls, hroom⟩ := hform (hmode.inside items) hread
      obtain ⟨ds, hds, hcalls', hroom'⟩ := ih (hmode.later hparse) hothers
      rw [(hmode.inside items).room_eq hd hcalls hroom hread] at hroom'
      exact ⟨.more d ds, .more hd hds, Nat.max_le.mpr ⟨hcalls, hcalls'⟩,
        Nat.max_le.mpr ⟨hroom, hroom'⟩⟩
    cases token with
    | rightParen =>
      cases hrest
      exact ⟨.none, .none hnext, Nat.zero_le _, Nat.zero_le _⟩
    | endOfInput => cases hrest
    | _ => exact hmore rfl hrest

/-- What is read has a derivation, is nested no more deeply than there is room for, and takes no
more calls than there are. -/
theorem Mode.MayRead.exists_reads {mode : Mode} (hmode : mode.MayRead env s) {v : Value} {t : Store}
    (h : (run rounds calls).form mode env source s = (.ok (.ok v, rest), t)) :
    ∃ d : Datum .form, Reads source d rest ∧ d.calls ≤ calls ∧ d.nesting ≤ s.room env := by
  induction calls generalizing mode source rest s v t with
  | zero =>
    obtain ⟨token, inner, -, hparse⟩ := form_eq_ok h
    cases hparse
  | succ calls ih =>
    obtain ⟨token, inner, htoken, hparse⟩ := form_eq_ok h
    have hatom : 1 ≤ calls + 1 := Nat.succ_le_succ (Nat.zero_le _)
    cases token with
    | number x =>
      cases hparse
      exact ⟨_, .number htoken, hatom, Nat.zero_le _⟩
    | text content =>
      obtain rfl := Reading.ofRun_eq_ok hparse
      exact ⟨_, .text htoken, hatom, Nat.zero_le _⟩
    | symbol name =>
      obtain rfl := Reading.ofRun_eq_ok hparse
      exact ⟨_, .symbol htoken, hatom, Nat.zero_le _⟩
    | quote =>
      obtain ⟨v', middle, s', hinner, hquoted⟩ := Reading.bind_eq_ok hparse
      obtain rfl := Reading.ofRun_eq_ok hquoted
      obtain ⟨d, hd, hcalls, hroom⟩ := ih (.inl rfl) hinner
      exact ⟨.quote d, .quote htoken hd, Nat.succ_le_succ hcalls, hroom⟩
    | leftParen =>
      -- an open parenthesis is the only token that takes a nested step
      by_cases hdeep : (s.level (s.realmOf env)).HasRoom
      · rw [Run.run_parse_list hdeep] at hparse
        rcases hlist : Run.Parsing.list (run rounds calls) mode env inner (s.deepen env) with
          ⟨r, t'⟩
        rw [hlist] at hparse
        cases hparse
        obtain ⟨_, _, _, hget, hlist⟩ := Reading.bind_eq_ok hlist
        cases hget
        obtain ⟨items, middle, s', hitems, hfinish⟩ := Reading.bind_eq_ok hlist
        have hrest : rest = middle := by
          cases mode <;> exact Reading.ofRun_eq_ok hfinish
        subst hrest
        -- a nested step adds no frame, and the elements are read in it
        have hmode' : mode.MayRead env (s.deepen env) := hmode
        obtain ⟨ds, hds, hcalls, hroom⟩ := reads_of_elements ih hmode' hitems
        rw [Store.room_deepen hdeep] at hroom
        refine ⟨.list ds, .list htoken hds, Nat.succ_le_succ hcalls, ?_⟩
        have hpos := Store.hasRoom_iff.mp hdeep
        simp only [Datum.nesting]
        omega
      · rw [Run.run_parse_refused hdeep] at hparse
        cases hparse
    | rightParen => cases hparse
    | endOfInput => cases hparse

/-- What is read as data has a derivation, with so much room and so many calls. -/
theorem reads_of_form {v : Value} {t : Store}
    (h : (run rounds calls).form .data env source s = (.ok (.ok v, rest), t)) :
    ∃ d : Datum .form, Reads source d rest ∧ d.calls ≤ calls ∧ d.nesting ≤ s.room env :=
  Mode.MayRead.exists_reads (.inl rfl) h

/-- There is something to read in front of what a form is read from. -/
theorem Reads.skip_ne_nil {d : Datum .form} (h : Reads source d rest) : source.skip ≠ [] := by
  obtain ⟨token, inner, hnext, -, hend⟩ := h.next_form
  intro hnil
  rw [Token.next, hnil] at hnext
  cases hnext
  exact hend rfl

/-! ### Whole texts -/

theorem drainFrom_succ (self : Recur) (mode : Mode) (fuel : Nat) (forms : List Value) :
    Run.drainFrom self mode env (fuel + 1) forms source s =
      (if source.skip.isEmpty then pure forms.reverse
        else self.form mode env >>= fun v =>
          Run.drainFrom self mode env fuel (v :: forms) : Reading (List Value)) source.skip s := rfl

/-- Where only blanks and comments are left, a text is drained. -/
theorem drainFrom_nil (self : Recur) (mode : Mode) (fuel : Nat) (forms : List Value)
    (h : source.skip = []) :
    Run.drainFrom self mode env (fuel + 1) forms source s = (.ok (.ok forms.reverse, []), s) := by
  rw [drainFrom_succ, h]
  rfl

theorem drainFrom_gap {self : Recur} {mode : Mode} {fuel : Nat} {forms : List Value} {gap : Source}
    (h : Gap gap) :
    Run.drainFrom self mode env (fuel + 1) forms (gap ++ source) s =
      Run.drainFrom self mode env (fuel + 1) forms source s := by
  rw [drainFrom_succ, drainFrom_succ, Source.skip_gap h]

/-- Draining a text takes its first form and goes on behind it. -/
theorem drainFrom_cons (self : Recur) (mode : Mode) (fuel : Nat) (forms : List Value) {v : Value}
    {t : Store} (hne : source.skip ≠ [])
    (h : self.form mode env source.skip s = (.ok (.ok v, rest), t)) :
    Run.drainFrom self mode env (fuel + 1) forms source s =
      Run.drainFrom self mode env fuel (v :: forms) rest t := by
  have hempty : source.skip.isEmpty = false := List.isEmpty_eq_false_iff.mpr hne
  rw [drainFrom_succ, hempty]
  exact Reading.bind_apply_ok h

end Following

end PocketLisp
