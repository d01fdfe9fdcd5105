/-
PocketLisp/Proofs/Verbatim.lean

Reading verbatim.

A reading that only adds to the store is told by what it results in, by the
text that it leaves and by the names it has interned (`Reading.Outcome`), and
by when a large enough allowance is not used up (`Reading.Settles`).  Data, and
code in which there is no macro call, is read verbatim: the content of what is
read is that of the data.

Main result: `Reads.verbatim`.
-/
import PocketLisp.Proofs.Apart

namespace PocketLisp

/-! ### Readings that only add to the store -/

/-- What a reading has come to: it stops in front of `rest`, in a store that has grown out of `s`
and has the names of another, with one of these results, unless it was cut short; `none` is a
fault. -/
inductive Reading.Outcome {α : Type} (s : Store) (g : FrameId) (rest : Source) (names : Store)
    (P : Option α → Prop) : Except Stop (Except Fault α × Source) × Store → Prop
  | ok {a : α} {t : Store} : P (some a) → s.Grown t → Store.SameNames g names t →
      Outcome s g rest names P (.ok (.ok a, rest), t)
  | fault {f : Fault} {left : Source} {t : Store} : P none →
      Outcome s g rest names P (.ok (.error f, left), t)
  | cut {f : Fault} {left : Source} {t : Store} : (Stop.fault f).Short →
      Outcome s g rest names P (.ok (.error f, left), t)
  | unfinished {t : Store} : Outcome s g rest names P (.error .unfinished, t)

namespace Reading.Outcome

variable {α β : Type} {s t names names' : Store} {g : FrameId} {source middle rest : Source}
  {P : Option α → Prop} {Q : Option β → Prop}

theorem bind {m : Reading α} {k : α → Reading β} (hm : Outcome s g middle names P (m source t))
    (hk : ∀ a u, P (some a) → s.Grown u → Store.SameNames g names u →
      Outcome s g rest names' Q (k a middle u))
    (hnone : P none → Q none) : Outcome s g rest names' Q ((m >>= k) source t) := by
  generalize hx : m source t = x at hm
  -- only a value goes on, at the place where the first half ended
  cases hm with
  | ok ha hu hnames =>
    rw [Reading.bind_apply_ok hx]
    exact hk _ _ ha hu hnames
  | fault ha =>
    rw [Reading.bind_apply_fault hx]
    exact .fault (hnone ha)
  | cut hf =>
    rw [Reading.bind_apply_fault hx]
    exact .cut hf
  | unfinished =>
    rw [Reading.bind_apply_stop hx]
    exact .unfinished

/-- What a reading results in can be told less exactly. -/
theorem mono {R : Option α → Prop} {x : Except Stop (Except Fault α × Source) × Store}
    (hx : Outcome s g rest names P x) (h : ∀ r, P r → R r) : Outcome s g rest names R x := by
  cases hx with
  | ok ha hu hnames => exact .ok (h _ ha) hu hnames
  | fault ha => exact .fault (h _ ha)
  | cut hf => exact .cut hf
  | unfinished => exact .unfinished

/-- A run that takes nothing from the text and interns nothing. -/
theorem ofRun {m : Run α} {u : Store} (hm : Run.Outcome s g P u (m t))
    (hnames : Store.SameNames g names u) :
    Outcome s g source names P (Reading.ofRun m source t) := by
  rw [Reading.ofRun_apply]
  generalize m t = x at hm
  cases hm with
  | ok ha hu hnames' => exact .ok ha hu (hnames.trans hnames')
  | @fault stop _ ha =>
    cases stop with
    | fault f => exact .fault ha
    | unfinished => exact .unfinished
  | @short stop _ hstop =>
    -- running out of room is a fault of the reading, running out of calls stops it
    cases stop with
    | fault f => exact .cut hstop
    | unfinished => exact .unfinished

/-- A form is read behind its first token; if it is a list, in a nested step. -/
theorem form {R : Option Value → Prop} {inner : Source} {rounds calls : Nat} {token : Token}
    {mode : Mode} (hnext : Token.next source = (.ok token, inner)) (ht : s.Grown t)
    (hnames : Store.SameNames g names t)
    (hform : ∀ n u, calls = n + 1 → s.Grown u → Store.SameNames g names u →
      Outcome s g rest names' R (Run.Parsing.form (run rounds n) token mode g inner u)) :
    Outcome s g rest names' R ((run rounds calls).form mode g source t) := by
  rw [form_apply _ _ hnext]
  cases calls with
  | zero => exact .unfinished
  | succ n =>
    -- a list is read one step deeper, if there is room
    by_cases hlist : token = .leftParen
    · subst hlist
      by_cases hdeep : (t.level (t.realmOf g)).HasRoom
      · rw [Run.run_parse_list hdeep]
        have hbody := hform n (t.deepen g) rfl (ht.deepen g) (hnames.deepen g)
        simp only [Run.Parsing.form] at hbody
        generalize Run.Parsing.list (run rounds n) mode g inner (t.deepen g) = x at hbody
        cases hbody with
        | ok ha hu hnames' => exact .ok ha (hu.riseIn _) (hnames'.riseIn _)
        | fault ha => exact .fault ha
        | cut hf => exact .cut hf
        | unfinished => exact .unfinished
      · rw [Run.run_parse_refused hdeep]
        exact .cut (.stackExhausted _)
    · rw [Run.run_parse hlist]
      exact hform n t rfl ht hnames

end Reading.Outcome

/-- From a place of a text and a store on, a reading ends in one of these ways, and under a
condition a large enough allowance is not used up. -/
structure Reading.Settles {α : Type} (s : Store) (g : FrameId) (rest : Source) (names : Store)
    (condition : Prop) (P : Option α → Prop) (m : Recur → Reading α) (source : Source)
    (t : Store) : Prop where
  outcome : ∀ rounds calls, Reading.Outcome s g rest names P (m (run rounds calls) source t)
  halts : condition → Run.Halts (fun self _ => m self source) t

namespace Reading.Settles

variable {α β : Type} {s t names names' : Store} {g : FrameId} {source middle rest : Source}
  {A B : Prop} {P : Option α → Prop} {Q : Option β → Prop}

/-- A reading that comes to the same end whatever the allowance. -/
theorem const {m : Recur → Reading α} {u : Store} {a : α}
    (hm : ∀ self, m self source t = (.ok (.ok a, rest), u)) (ha : P (some a)) (hu : s.Grown u)
    (hnames : Store.SameNames g names u) : Settles s g rest names B P m source t where
  outcome := fun rounds calls => by
    rw [hm]
    exact .ok ha hu hnames
  halts := fun _ => ⟨(.ok (.ok a, rest), u), nofun, 0, fun _ _ _ _ _ _ => hm _⟩

theorem bind {m : Recur → Reading α} {k : α → Recur → Reading β}
    (hm : Settles s g middle names A P m source t) (hB : B → A)
    (hk : ∀ a u, P (some a) → s.Grown u → Store.SameNames g names u →
      Settles s g rest names' B Q (k a) middle u)
    (hnone : P none → Q none) :
    Settles s g rest names' B Q (fun self => m self >>= fun a => k a self) source t where
  outcome := fun rounds calls => (hm.outcome rounds calls).bind
    (fun a u ha hu hnames => (hk a u ha hu hnames).outcome rounds calls) hnone
  halts := fun h => by
    obtain ⟨x, hfinished, n, henough⟩ := hm.halts (hB h)
    have houtcome := hm.outcome n n
    have hx : m (run n n) source t = x :=
      henough n n n (Nat.le_refl n) (Nat.le_refl n) (Nat.le_refl n)
    rw [hx] at houtcome
    cases houtcome with
    | @ok a u ha hu hnames =>
      -- enough for the first half and for the second
      obtain ⟨y, hy⟩ := (hk a u ha hu hnames).halts h
      obtain ⟨n', henough'⟩ := hy.enough
      refine ⟨y, hy.finished, max n n', fun rounds calls times hrounds hcalls htimes => ?_⟩
      refine (Reading.bind_apply_ok (henough rounds calls times ?_ ?_ ?_)).trans
        (henough' rounds calls times ?_ ?_ ?_)
      all_goals omega
    | @fault f left u | @cut f left u =>
      exact ⟨(.ok (.error f, left), u), nofun, n, fun rounds calls times hrounds hcalls htimes =>
        Reading.bind_apply_fault (henough rounds calls times hrounds hcalls htimes)⟩
    | unfinished => exact absurd rfl hfinished

/-- What a reading results in can be told less exactly. -/
theorem mono {R : Option α → Prop} {m : Recur → Reading α}
    (hm : Settles s g rest names B P m source t) (h : ∀ r, P r → R r) :
    Settles s g rest names B R m source t :=
  ⟨fun rounds calls => (hm.outcome rounds calls).mono h, hm.halts⟩

/-- What does the same as a reading that settles. -/
theorem congr {m m' : Recur → Reading α} {source' : Source} {t' : Store}
    (hm : Settles s g rest names B P m' source' t')
    (heq : ∀ self, m self source t = m' self source' t') :
    Settles s g rest names B P m source t where
  outcome := fun rounds calls => by
    rw [heq]
    exact hm.outcome rounds calls
  halts := fun h => (hm.halts h).congr fun self _ => heq self

/-- A run that takes nothing from the text and interns nothing. -/
theorem ofRun {m : Recur → Run α} {u : Store}
    (hm : ∀ rounds calls, Run.Outcome s g P u (m (run rounds calls) t))
    (hhalts : B → Run.Halts (fun self _ => m self) t) (hnames : Store.SameNames g names u) :
    Settles s g source names B P (fun self => Reading.ofRun (m self)) source t where
  outcome := fun rounds calls => .ofRun (hm rounds calls) hnames
  halts := fun h => by
    obtain ⟨⟨r, w⟩, hfinished, n, henough⟩ := hhalts h
    have hread : ∀ self, m self t = (r, w) →
        Reading.ofRun (m self) source t = Reading.ofRun (fun _ => (r, w)) source t := by
      intro self hself
      rw [Reading.ofRun_apply, Reading.ofRun_apply, hself]
    refine ⟨_, ?_, n, fun rounds calls times hrounds hcalls htimes =>
      hread _ (henough rounds calls times hrounds hcalls htimes)⟩
    rw [Reading.ofRun_apply]
    -- a fault of the run becomes one of the reading, which is an end too
    match r, hfinished with
    | .ok a, _ | .error (.fault f), _ => exact nofun
    | .error .unfinished, hfinished => exact absurd rfl hfinished

theorem ofRun_ok {m : Recur → Run α} {a : α} {u : Store} (hm : ∀ self, m self t = (.ok a, u))
    (ha : P (some a)) (hu : s.Grown u) (hnames : Store.SameNames g names u) :
    Settles s g source names B P (fun self => Reading.ofRun (m self)) source t := by
  refine const (fun self => ?_) ha hu hnames
  rw [Reading.ofRun_apply, hm]

/-- A form is read behind its first token; if it is a list, in a nested step. -/
theorem form {R : Option Value → Prop} {inner : Source} {token : Token} {mode : Mode}
    (hnext : Token.next source = (.ok token, inner)) (ht : s.Grown t)
    (hnames : Store.SameNames g names t)
    (hform : ∀ u, s.Grown u → Store.SameNames g names u →
      Settles s g rest names' B R (fun self => Run.Parsing.form self token mode g) inner u) :
    Settles s g rest names' B R (fun self => self.form mode g) source t where
  outcome := fun rounds calls =>
    .form hnext ht hnames fun n u _ hu hnames' => (hform u hu hnames').outcome rounds n
  halts := fun h => by
    have hcall : Run.Halts (fun self _ => self (.parse token mode g inner)) t :=
      .call (fun _ => (hform t ht hnames).halts h) fun env _ =>
        (hform _ (ht.deepen env) (hnames.deepen env)).halts h
    exact hcall.congr fun self _ => form_apply self mode hnext

/-- The elements of a list are read one after the other. -/
theorem more {R : Option (List Value) → Prop} {inner : Source} {mode : Mode}
    {d : Datum .form} (h : Reads source d inner) {bound : Source}
    (hbound : source.length ≤ bound.length) {items : Array Value} {S : Option Value → Prop}
    (hfirst : Settles s g inner names A S (fun self => self.form (mode.inside items) g) source t)
    (hB : B → A)
    (hothers : ∀ bound' w u, inner.length ≤ bound'.length → S (some w) → s.Grown u →
      Store.SameNames g names u → Settles s g rest names' B R
        (fun self => Run.Parsing.elements self mode g bound' (items.push w)) inner u)
    (hnone : S none → R none) :
    Settles s g rest names' B R (fun self => Run.Parsing.elements self mode g bound items)
      source t := by
  obtain ⟨token, start, htoken, hclose, hend⟩ := h.next_form
  obtain ⟨bound', hbound', heq⟩ := elements_more mode g t htoken hclose hend hbound items
  have hlt := h.length_lt
  -- the bound is not used up, so the elements are one form and the others behind it
  have hboth := hfirst.bind (k := fun w self => Run.Parsing.elements self mode g bound'
    (items.push w)) hB (fun w u hw hu hnames => hothers bound' w u (by omega) hw hu hnames) hnone
  refine hboth.congr fun self => ?_
  rw [heq]
  simp only [Reading.bind_apply, Run.bind_apply]
  rw [form_apply self _ htoken]
  rfl

/-- A list is what becomes of its elements. -/
theorem list {R : Option Value → Prop} {mode : Mode} {P : Option (List Value) → Prop}
    (hlist : ∀ items u, P (some items) → s.Grown u → Store.SameNames g names u →
      Settles s g rest names' B R (fun self => match mode with
        | .data => Reading.ofRun (Fresh.list items)
        | .code => Reading.ofRun (Run.Parsing.codeList self items g)) rest u)
    (hnone : P none → R none) (hB : B → A)
    (helements : Settles s g rest names A P
      (fun self => Run.Parsing.elements self mode g source #[]) source t) :
    Settles s g rest names' B R (fun self => Run.Parsing.form self .leftParen mode g) source t :=
  (helements.bind hB hlist hnone).congr fun _ => rfl

end Reading.Settles

/-! ### Lists in code -/

/-- The elements of a new list. -/
theorem Store.cars_addList (s : Store) (items : List Value) : (s.addList items).1.cars = items := by
  have hchain : ∀ (next : ObjectId) (reversed : List Value) (tail : Value),
      (Value.chain next reversed tail).1.cars = reversed.reverse ++ tail.cars := by
    intro next reversed
    induction reversed generalizing next with
    | nil => exact fun tail => rfl
    | cons v reversed ih =>
      intro tail
      rw [Value.chain, ih, List.reverse_cons, List.append_assoc]
      rfl
  rw [Store.addList, hchain, List.reverse_reverse]
  exact List.append_nil items

/-- The head of a new list is that of its elements. -/
theorem Store.head?_addList (s : Store) (items : List Value) :
    (s.addList items).1.head? = items.head?.bind Value.symbol? := by
  rw [← Value.head?_eq_cars, Store.cars_addList]

/-- A complete list in code that defines no macro is expanded if it is a macro call. -/
theorem Run.Parsing.codeList_apply (self : Recur) {items : List Value} (g : FrameId) (s : Store)
    (hdefinition : ∀ symbol, items.head?.bind Value.symbol? = some symbol →
      symbol.is .macroDef = false) :
    codeList self items g s =
      if (s.addList items).1.isCall (s.expander? g) then
        self (.expand (s.addList items).1 g) (s.addList items).2
      else (.ok (s.addList items).1, (s.addList items).2) := by
  have hcall : (s.addList items).1.isCall (s.expander? g) =
      ((items.head?.bind Value.symbol?).bind (s.expander? g)).isSome := by
    rw [Value.isCall, Store.head?_addList]
  rw [hcall]
  -- a list without a symbol in front is kept as it is
  rcases hsymbol : items.head?.bind Value.symbol? with - | head
  · have hplain : codeList self items g = Run.ofFresh (Fresh.list items) := by
      rcases items with - | ⟨first, others⟩
      · rfl
      · cases first <;> first | rfl | cases hsymbol
    rw [hplain]
    exact Run.ofFresh_list items s
  · have hhead : head.is .macroDef = false := hdefinition head hsymbol
    obtain ⟨others, rfl⟩ : ∃ others, items = .symbol head :: others := by
      rcases items with - | ⟨first, others⟩
      · cases hsymbol
      · cases first <;> first | cases hsymbol; exact ⟨others, rfl⟩ | cases hsymbol
    simp only [codeList, hhead, Bool.false_eq_true, if_false]
    refine (Run.bind_apply_ok (Run.ofFresh_list _ s)).trans ?_
    refine (Run.bind_apply_ok (Run.read_apply _ _)).trans ?_
    have hsame : (s.addList (.symbol head :: others)).2.expander? g head = s.expander? g head := rfl
    rw [hsame]
    show _ = if (s.expander? g head).isSome = true then _ else _
    rcases s.expander? g head with - | index <;> rfl

section Verbatim

variable {s : Store} {g : FrameId} {results : Nat → Expander}

/-- Whether a form is a macro call is told by its head, as long as the store only grows. -/
theorem isCall_congr (hg : s.HasGlobal g) {t : Store} (ht : s.Grown t) {v w : Value}
    (h : w.head? = v.head?) (results : Nat → Expander) :
    w.isCall (t.expander? g) = v.isCall (s.macros g results) := by
  have hmacros : t.expander? g = s.expander? g := funext fun symbol => ht.expander? hg symbol
  rw [Value.isCall, Value.isCall, h, hmacros]
  rcases v.head? with - | head
  · rfl
  · exact Option.isSome_map.symm

/-- What a complete list is whose head is that of a form in which macro calls are apart. -/
theorem Value.CallsApart.codeList {v : Value} {calls : Bool}
    (h : v.CallsApart (s.macros g results) calls) (hg : s.HasGlobal g) {t : Store} (ht : s.Grown t)
    {items : List Value} (hhead : (t.addList items).1.head? = v.head?) (self : Recur) :
    Run.Parsing.codeList self items g t =
      if v.isCall (s.macros g results) then self (.expand (t.addList items).1 g) (t.addList items).2
      else (.ok (t.addList items).1, (t.addList items).2) := by
  have hdefinition : ∀ symbol, items.head?.bind Value.symbol? = some symbol →
      symbol.is .macroDef = false := by
    rw [← Store.head?_addList t, hhead]
    exact h.definition
  rw [Run.Parsing.codeList_apply self g t hdefinition, isCall_congr hg ht hhead results]

/-- What reading a part verbatim comes to: values of the same content as those it stands for. -/
def ReadsVerbatim (s : Store) (g : FrameId) (macros : Symbol → Option Expander) (source : Source)
    (t : Store) (rest : Source) (names : Store) : (p : Part) → p.Result → Prop
  | .form, v => ∀ mode : Mode, (mode = .code → v.CallsApart macros false) →
      Reading.Settles s g rest names True (fun r => r.map Value.bare = some v.bare)
        (fun self => self.form mode g) source t
  | .items, vs => ∀ (mode : Mode) (bound : Source) (items : Array Value),
      source.length ≤ bound.length →
      (mode = .code → ElementsApart macros false items vs) →
      Reading.Settles s g rest names True
        (fun r => r.map (List.map Value.bare) = some ((items.toList ++ vs).map Value.bare))
        (fun self => Run.Parsing.elements self mode g bound items) source t

/-- A list of the content of the elements has the content of the list. -/
theorem Datum.bare_list {ds : Datum .items} {u t : Store} {ws : List Value}
    (h : ws.map Value.bare = List.map Value.bare (ds.build g u).1) :
    (t.addList ws).1.bare = Value.bare ((Datum.list ds).build g u).1 := by
  rw [Store.bare_addList, Datum.build, Store.bare_addList]
  exact Value.bareList_congr h

/-- A quoted form is headed by `quote`, under every case rule. -/
theorem Datum.keyword_head?_quote (d : Datum .form) (s : Store) (g : FrameId) :
    (Value.head? ((Datum.quote d).build g s).1).bind Symbol.keyword = some (.form .quote) :=
  (d.build g s).2.keyword_intern_spelling g (.form .quote)

theorem Reads.verbatim_quote {source inner rest : Source} {d : Datum .form}
    (hquote : Token.next source = (.ok .quote, inner)) {t u : Store} (ht : s.Grown t)
    (hnames : Store.SameNames g u t) {macros : Symbol → Option Expander}
    (hinner : ∀ t', s.Grown t' → Store.SameNames g u t' →
      ReadsVerbatim s g macros inner t' rest (d.build g u).2 .form (d.build g u).1) :
    ReadsVerbatim s g macros source t rest ((Datum.quote d).build g u).2 .form
      ((Datum.quote d).build g u).1 := by
  intro mode _
  refine .form hquote ht hnames fun t' ht' hnames' => ?_
  refine .bind (hinner t' ht' hnames' .data (by rintro ⟨⟩)) id (fun w t'' hw ht'' hnames'' => ?_)
    (by rintro ⟨⟩)
  have hintern := hnames''.intern (Keyword.form .quote).spelling
  refine .ofRun_ok (fun _ => Run.Parsing.quoted_apply w g t'') ?_ ((ht''.intern g _).addList _)
    (hintern.addList _ _)
  -- the name of the quoting form is interned alike in both stores
  rw [Option.map_some, Store.bare_addList, Datum.build, Store.bare_addList]
  refine congrArg some (Value.bareList_congr ?_)
  simp only [hnames''.intern_eq, List.map_cons, List.map_nil, Option.some.inj hw]

theorem Reads.verbatim_list {source inner rest : Source} {ds : Datum .items}
    (hopen : Token.next source = (.ok .leftParen, inner)) (hg : s.HasGlobal g) {t u : Store}
    (ht : s.Grown t) (hnames : Store.SameNames g u t)
    (hinner : ∀ t', s.Grown t' → Store.SameNames g u t' →
      ReadsVerbatim s g (s.macros g results) inner t' rest (ds.build g u).2 .items
        (ds.build g u).1) :
    ReadsVerbatim s g (s.macros g results) source t rest
      ((Datum.list ds).build g u).2 .form ((Datum.list ds).build g u).1 := by
  intro mode hapart
  refine .form hopen ht hnames fun t' ht' hnames' => ?_
  refine .list (fun ws t'' hws ht'' hnames'' => ?_) (by rintro ⟨⟩) id
    (hinner t' ht' hnames' mode _ #[] (Nat.le_refl _) fun hcode => ?_)
  · have hw : (t''.addList ws).1.bare = Value.bare ((Datum.list ds).build g u).1 :=
      Datum.bare_list (Option.some.inj hws)
    have hdone : (some (t''.addList ws).1).map Value.bare =
        some (Value.bare ((Datum.list ds).build g u).1) := congrArg some hw
    cases mode with
    | data =>
      exact .ofRun_ok (fun _ => Run.ofFresh_list ws t'') hdone (ht''.addList ws)
        (hnames''.addList _ _)
    | code =>
      -- without macro calls, the complete list is no macro call either
      have hcall : Value.isCall (s.macros g results) ((Datum.list ds).build g u).1 = false :=
        Bool.eq_false_iff.mpr fun h => Bool.false_ne_true ((hapart rfl).allowed h).1
      have hrun : ∀ self, Run.Parsing.codeList self ws g t'' =
          (.ok (t''.addList ws).1, (t''.addList ws).2) := by
        intro self
        rw [(hapart rfl).codeList hg ht'' (Value.head?_congr hw), hcall]
        rfl
      exact .ofRun_ok hrun hdone (ht''.addList ws) (hnames''.addList _ _)
  · have helements := (hapart hcode).elements
    rwa [Datum.build, Store.cars_addList, Bool.false_and] at helements

/-- Data, and code without macro calls, is read as it stands. -/
theorem Reads.verbatim {p : Part} {source rest : Source} {d : Datum p} (h : Reads source d rest)
    (hg : s.HasGlobal g) {t u : Store} (ht : s.Grown t) (hnames : Store.SameNames g u t) :
    ReadsVerbatim s g (s.macros g results) source t rest (d.build g u).2 p (d.build g u).1 := by
  -- the names of the store that is read in stay those of the store that the data is built in
  induction h generalizing t u with
  | number h =>
    intro mode _
    refine .form h ht hnames fun t' ht' hnames' => ?_
    exact .const (fun _ => rfl) rfl ht' hnames'
  | text h =>
    intro mode _
    refine .form h ht hnames fun t' ht' hnames' => ?_
    exact .const (fun _ => rfl) rfl (ht'.nextId _)
      ⟨hnames'.realmOf, hnames'.size, hnames'.symbols⟩
  | @symbol _ _ name h =>
    intro mode _
    refine .form h ht hnames fun t' ht' hnames' => ?_
    refine .ofRun_ok (fun _ => Run.Parsing.atom_apply name g t') ?_ (ht'.intern g name)
      (hnames'.intern name)
    rw [Option.map_some, hnames'.intern_eq name]
    rfl
  | quote h _ ih =>
    exact Reads.verbatim_quote h ht hnames fun t' ht' hnames' => ih ht' hnames'
  | list h _ ih =>
    exact Reads.verbatim_list h hg ht hnames fun t' ht' hnames' => ih ht' hnames'
  | none h =>
    intro mode bound items hbound _
    refine .const (fun self => elements_close self mode h hbound items) ?_ ht hnames
    rw [Datum.build, List.append_nil]
    rfl
  | @more _ _ _ d ds h _ ih ih' =>
    intro mode bound items hbound hapart
    refine .more h hbound (ih ht hnames _ fun hcode => ?_) id
      (fun bound' w t' hbound' hw ht' hnames' => ?_) (by rintro ⟨⟩)
    · cases mode with
      | data => cases hcode
      | code => exact (hapart rfl).next rfl hcode
    · have hw' : w.bare = (d.build g u).1.bare := Option.some.inj hw
      refine (ih' ht' hnames' mode bound' (items.push w) hbound' fun hmode => ?_).mono ?_
      · exact (hapart hmode).push fun _ => by rw [← Value.symbol?_bare, hw', Value.symbol?_bare]
      · intro r hr
        rw [hr, Datum.build]
        simp [hw']

end Verbatim

end PocketLisp
