/-
PocketLisp/Proofs/CodeReading.lean

Reading as code against expansion after the fact.

Reading expands a macro call as soon as it is complete, after its elements;
expansion of a form goes from the outside inwards.  The two agree on texts in
which macro calls are apart from each other, whatever the macros do: what is
read is what the data expands to (`Reads.expanded`), and either way comes to
its end if the other does, unless it exhausts the nesting limit.

Main result: `readForm_agrees`.  What it asks of the places of macro calls is
needed: without it, macros that ignore their argument are enough to tell the
two apart (`readForm_disagrees`).
-/
import PocketLisp.Engine
import PocketLisp.Proofs.Templates
import PocketLisp.Proofs.Verbatim

namespace PocketLisp

/-! ### Lists whose first elements are kept -/

section Kept

variable {macros : Symbol → Option Expander}

/-- What becomes of the elements of a list of which as many as `kept` are left alone. -/
def ExpandsBehind (macros : Symbol → Option Expander) (kept : Nat) (vs : List Value) :
    Option (List Value) → Prop
  | some ws => (ws.take kept).map Value.bare = (vs.take kept).map Value.bare ∧
      Expands macros (p := .items) ((vs.drop kept).map Value.bare)
        (some ((ws.drop kept).map Value.bare))
  | none => Expands macros (p := .items) ((vs.drop kept).map Value.bare) none

namespace ExpandsBehind

variable {kept : Nat} {v w : Value} {vs ws : List Value} {r : Option (List Value)}

theorem nil : ExpandsBehind macros kept [] (some []) := by
  refine ⟨by rw [List.take_nil], ?_⟩
  rw [List.drop_nil]
  exact .none

/-- An element that is kept. -/
theorem keep (hw : w.bare = v.bare) (h : ExpandsBehind macros kept vs r) :
    ExpandsBehind macros (kept + 1) (v :: vs) (r.map (w :: ·)) := by
  cases r with
  | none => exact h
  | some ws =>
    refine ⟨?_, h.2⟩
    show w.bare :: (ws.take kept).map Value.bare = v.bare :: (vs.take kept).map Value.bare
    rw [hw, h.1]

/-- An element that is expanded. -/
theorem more (hw : Expands macros (p := .form) v.bare (some w.bare))
    (h : ExpandsBehind macros 0 vs r) : ExpandsBehind macros 0 (v :: vs) (r.map (w :: ·)) := by
  cases r with
  | none => exact Expands.more hw h
  | some ws => exact ⟨rfl, Expands.more hw h.2⟩

/-- Where all elements are kept, nothing becomes of them. -/
theorem all_kept (h : ExpandsBehind macros kept vs r) (hlength : vs.length ≤ kept) :
    ∃ ws, r = some ws ∧ ws.map Value.bare = vs.map Value.bare := by
  have hnil : vs.drop kept = [] := List.drop_eq_nil_of_le hlength
  cases r with
  | none =>
    have hfails : Expands macros (p := .items) ((vs.drop kept).map Value.bare) none := h
    rw [hnil] at hfails
    cases hfails.eq_nil
  | some ws =>
    obtain ⟨htake, hdrop⟩ := h
    rw [hnil] at hdrop
    have hnil' := List.map_eq_nil_iff.mp (Option.some.inj hdrop.eq_nil)
    refine ⟨ws, rfl, ?_⟩
    rw [List.take_of_length_le hlength] at htake
    rwa [← List.take_append_drop kept ws, hnil', List.append_nil]

theorem eq_nil (h : ExpandsBehind macros kept [] r) : r = some [] := by
  obtain ⟨ws, rfl, hws⟩ := h.all_kept (Nat.zero_le kept)
  rw [List.map_eq_nil_iff.mp hws]

/-- The head of a list stays, if its first element keeps its symbol. -/
theorem head_eq (h : ExpandsBehind macros kept vs (some ws))
    (hfirst : ∀ a r, vs.head? = some a → Expands macros (p := .form) a.bare (some r) →
      r.symbol? = a.symbol?) :
    ws.head?.bind Value.symbol? = vs.head?.bind Value.symbol? := by
  cases vs with
  | nil => cases h.eq_nil; rfl
  | cons v vs =>
    obtain ⟨htake, hdrop⟩ := h
    cases ws with
    | nil =>
      cases kept with
      | zero => cases hdrop.length_eq
      | succ kept => cases htake
    | cons w ws =>
      show w.symbol? = v.symbol?
      rw [← Value.symbol?_bare w]
      -- the first element is expanded, or kept and has the same content
      cases kept with
      | zero =>
        obtain ⟨w', others, heq, hw', -⟩ := hdrop.cons_eq
        rw [(List.cons.inj heq).1]
        exact hfirst v w' rfl hw'
      | succ kept => rw [(List.cons.inj htake).1, Value.symbol?_bare]

/-- The elements that are kept and the others are those of the list. -/
theorem withElements_eq (h : ExpandsBehind macros kept vs (some ws)) {v : Value}
    (hv : v.bare = Value.bareList vs) :
    v.bare.withElements kept ((ws.drop kept).map Value.bare) = Value.bareList ws := by
  rw [Value.withElements, hv, Value.cars_bareList, Value.finalTail_bareList, ← List.map_take, ← h.1,
    ← List.map_append, List.take_append_drop, List.foldr_map]
  rfl

/-- What becomes of a list that is no macro call. -/
theorem list (h : ExpandsBehind macros kept vs r) {v : Value} (hv : v.bare = Value.bareList vs)
    (hcall : v.isCall macros = false) (hkept : kept = (keptBehind v.head?).getD vs.length) :
    Expands macros (p := .form) v.bare (r.map Value.bareList) := by
  have hunfold : v.bare.unfolded? macros = none :=
    Value.unfolded?_eq_none_iff.mpr (by rw [Value.isCall_bare, hcall])
  rcases vs with - | ⟨first, others⟩
  · -- the empty list is an atom
    cases h.eq_nil
    rw [hv]
    exact .atom rfl
  · have hcons : v.bare.isCons = true := by rw [hv]; rfl
    rcases hbehind : keptBehind v.head? with - | n
    · -- all elements are kept
      have hall : (first :: others).length ≤ kept := by rw [hkept, hbehind]; exact Nat.le_refl _
      obtain ⟨ws, rfl, hws⟩ := h.all_kept hall
      rw [Option.map_some, Value.bareList_congr hws, ← hv]
      exact .data hcons hunfold (by rw [Value.head?_bare, hbehind])
    · -- those behind the kept ones are expanded, or one of them fails
      obtain rfl : kept = n := by rw [hkept, hbehind]; rfl
      have hhead : keptBehind v.bare.head? = some kept := by rw [Value.head?_bare, hbehind]
      have hcars : v.bare.cars.drop kept = ((first :: others).drop kept).map Value.bare := by
        rw [hv, Value.cars_bareList, List.map_drop]
      rcases r with - | ws
      · have hfails : Expands macros (p := .items) (v.bare.cars.drop kept) none := hcars ▸ h
        exact .elements hcons hunfold hhead hfails
      · rw [Option.map_some, ← h.withElements_eq hv]
        exact .elements hcons hunfold hhead (hcars ▸ h.2)

end ExpandsBehind

/-- If a list is expanded that is no macro call, its elements are that are not left alone. -/
theorem Expands.elements_of_list {v : Value} {vs : List Value} {r : Option Value}
    (h : Expands macros (p := .form) v.bare r) (hv : v.bare = Value.bareList vs)
    (hcall : v.isCall macros = false) :
    ∃ r', Expands macros (p := .items)
      ((vs.drop ((keptBehind v.head?).getD vs.length)).map Value.bare) r' := by
  have hunfold : v.bare.unfolded? macros = .none :=
    Value.unfolded?_eq_none_iff.mpr (by rw [Value.isCall_bare, hcall])
  generalize hx : v.bare = x at h
  -- the list is no macro call, so what is known of it is known of its elements
  cases h with
  | atom hatom =>
    cases vs with
    | nil => exact ⟨_, by simpa using Expands.none⟩
    | cons a vs =>
      rw [← hx, hv] at hatom
      cases hatom
  | failure hcall' | call hcall' => cases (hx ▸ hunfold).symm.trans hcall'
  | data _ _ hkept =>
    rw [← hx, Value.head?_bare] at hkept
    exact ⟨_, by simpa [hkept] using Expands.none⟩
  | elements _ _ hkept hitems =>
    rw [← hx, Value.head?_bare] at hkept
    rw [← hx, hv, Value.cars_bareList, ← List.map_drop] at hitems
    exact ⟨_, by simpa [hkept] using hitems⟩

end Kept

/-! ### Reading and expanding -/

section Expanded

variable {s : Store} {g : FrameId} {results : Nat → Expander}

/-- What reading a part as code comes to, if macro calls are apart in it: what the data that it
stands for is expanded to.  If the data has an expansion, a large enough allowance is not used
up. -/
def ReadsExpanded (s : Store) (g : FrameId) (macros : Symbol → Option Expander) (source : Source)
    (t : Store) (rest : Source) (names : Store) : (p : Part) → p.Result → Prop
  | .form, v => v.CallsApart macros true →
      Reading.Settles s g rest names (∃ r, Expands macros (p := .form) v.bare r)
        (fun r => Expands macros (p := .form) v.bare (r.map Value.bare))
        (fun self => self.form .code g) source t
  | .items, vs => ∀ (bound : Source) (head : Option Symbol) (items : Array Value) (kept : Nat),
      source.length ≤ bound.length → ElementsAhead macros head items kept vs →
        Reading.Settles s g rest names
          (∃ r, Expands macros (p := .items) ((vs.drop kept).map Value.bare) r)
          (fun r => ∃ r', ExpandsBehind macros kept vs r' ∧ r = r'.map (items.toList ++ ·))
          (fun self => Run.Parsing.elements self .code g bound items) source t

/-- A form that is read verbatim and that expansion leaves alone. -/
theorem Reads.unexpanded {source rest : Source} {d : Datum .form} (h : Reads source d rest)
    (hg : s.HasGlobal g) {t u : Store} (ht : s.Grown t) (hnames : Store.SameNames g u t)
    (hapart : Value.CallsApart (s.macros g results) false (d.build g u).1)
    (hsame : Expands (s.macros g results) (p := .form) (Value.bare (d.build g u).1)
      (some (Value.bare (d.build g u).1))) :
    ReadsExpanded s g (s.macros g results) source t rest (d.build g u).2 .form
      (d.build g u).1 := by
  intro _
  have hverbatim := h.verbatim hg ht hnames .code fun _ => hapart
  refine ⟨fun rounds calls => (hverbatim.outcome rounds calls).mono fun r hr => ?_,
    fun _ => hverbatim.halts trivial⟩
  rw [hr]
  exact hsame

theorem Symbol.isCons_atom (symbol : Symbol) : symbol.atom.isCons = false := by
  rw [Symbol.atom]
  split <;> rfl

/-- The quote mark keeps the form behind it from being expanded. -/
theorem Reads.expanded_quote {source inner rest : Source} {d : Datum .form}
    (hquote : Token.next source = (.ok .quote, inner)) (h : Reads inner d rest)
    (hg : s.HasGlobal g) {t u : Store} (ht : s.Grown t) (hnames : Store.SameNames g u t) :
    ReadsExpanded s g (s.macros g results) source t rest ((Datum.quote d).build g u).2 .form
      ((Datum.quote d).build g u).1 := by
  intro hapart
  have hhead := d.keyword_head?_quote u g
  have hcall : Value.isCall (s.macros g results) ((Datum.quote d).build g u).1 = false :=
    Bool.eq_false_iff.mpr fun hcall => absurd hhead (hapart.allowed hcall).2
  refine (Reads.quote hquote h).unexpanded hg ht hnames (hapart.of_quote hhead) ?_ hapart
  refine .data rfl (Value.unfolded?_eq_none_iff.mpr (by rw [Value.isCall_bare, hcall])) ?_
  rw [Value.head?_bare, keptBehind, hhead]

/-- A macro call is expanded when its elements have been read, which is done verbatim. -/
theorem Reads.expanded_call {source inner rest : Source} {ds : Datum .items}
    (hopen : Token.next source = (.ok .leftParen, inner)) (h : Reads inner ds rest)
    (hg : s.HasGlobal g) (hpure : s.PureExpanders g results) {t u : Store} (ht : s.Grown t)
    (hnames : Store.SameNames g u t)
    (hcall : Value.isCall (s.macros g results) ((Datum.list ds).build g u).1 = true) :
    ReadsExpanded s g (s.macros g results) source t rest ((Datum.list ds).build g u).2 .form
      ((Datum.list ds).build g u).1 := by
  intro hapart
  have hlist := hapart.elements
  rw [hcall, Datum.build, Store.cars_addList] at hlist
  refine .form hopen ht hnames fun t' ht' hnames' => ?_
  refine .list (fun ws t'' hws ht'' hnames'' => ?_) (by rintro ⟨⟩) (fun _ => trivial)
    (h.verbatim hg ht' hnames' .code _ #[] (Nat.le_refl _) fun _ => hlist)
  have hw : (t''.addList ws).1.bare = Value.bare ((Datum.list ds).build g u).1 :=
    Datum.bare_list (Option.some.inj hws)
  have hcode : ∀ self, Run.Parsing.codeList self ws g t'' =
      self (.expand (t''.addList ws).1 g) (t''.addList ws).2 := fun self => by
    rw [hapart.codeList hg ht'' (Value.head?_congr hw), hcall]
    rfl
  -- the cells of the complete list are new, but expansion is told by their content
  refine .ofRun (u := (t''.addList ws).2) (fun rounds n => ?_) (fun hexpands => ?_)
    (hnames''.addList _ _)
  · have hexpand := run_expand hg hpure rounds n (t''.addList ws).1 _ (ht''.addList ws)
    rw [hw] at hexpand
    rw [hcode]
    exact hexpand
  · obtain ⟨r, hr⟩ := hexpands
    rw [← hw] at hr
    exact (hr.halts hg hpure (ht''.addList ws)).congr fun self _ => hcode self

/-- Any other list is complete when its elements have been read and expanded. -/
theorem Reads.expanded_list {source inner rest : Source} {ds : Datum .items}
    (hopen : Token.next source = (.ok .leftParen, inner)) (hg : s.HasGlobal g) {t u : Store}
    (ht : s.Grown t) (hnames : Store.SameNames g u t)
    (hitems : ∀ t', s.Grown t' → Store.SameNames g u t' →
      ReadsExpanded s g (s.macros g results) inner t' rest (ds.build g u).2 .items
        (ds.build g u).1)
    (hcall : Value.isCall (s.macros g results) ((Datum.list ds).build g u).1 = false) :
    ReadsExpanded s g (s.macros g results) source t rest
      ((Datum.list ds).build g u).2 .form ((Datum.list ds).build g u).1 := by
  intro hapart
  have hcars : Value.cars ((Datum.list ds).build g u).1 = (ds.build g u).1 :=
    Store.cars_addList _ _
  have hbare : Value.bare ((Datum.list ds).build g u).1 = Value.bareList (ds.build g u).1 :=
    Store.bare_addList _ _
  have hahead := ElementsAhead.start hapart hcall
  rw [hcars] at hahead
  refine .form hopen ht hnames fun t' ht' hnames' => ?_
  refine .list (fun ws t'' hws ht'' hnames'' => ?_) ?_ ?_
    (hitems t' ht' hnames' _ _ #[] _ (Nat.le_refl _) hahead)
  · obtain ⟨r, hr, hws⟩ := hws
    obtain rfl : r = some ws := by
      cases r with
      | none => cases hws
      | some ws' => exact hws.symm
    -- no element expands to a symbol that would make a macro call of the complete list
    have hhead : (t''.addList ws).1.head? = Value.head? ((Datum.list ds).build g u).1 := by
      rw [Store.head?_addList, hr.head_eq (hahead.first rfl), ← hahead.head_eq]
      rfl
    have hexpands := hr.list hbare hcall rfl
    rw [Option.map_some, ← Store.bare_addList t''] at hexpands
    refine .ofRun_ok (fun self => ?_) hexpands (ht''.addList ws) (hnames''.addList _ _)
    rw [hapart.codeList hg ht'' hhead, hcall]
    rfl
  · -- an element fails, and the list with it
    rintro ⟨r, hr, hnone⟩
    cases r with
    | none => exact hr.list hbare hcall rfl
    | some ws => cases hnone
  · -- what the elements expand to has to be known only if it is of the list
    rintro ⟨r, hr⟩
    exact hr.elements_of_list hbare hcall

/-- What is read as code is what the data expands to, where macro calls are apart. -/
theorem Reads.expanded {p : Part} {source rest : Source} {d : Datum p} (h : Reads source d rest)
    (hg : s.HasGlobal g) (hpure : s.PureExpanders g results) {t u : Store} (ht : s.Grown t)
    (hnames : Store.SameNames g u t) :
    ReadsExpanded s g (s.macros g results) source t rest (d.build g u).2 p (d.build g u).1 := by
  induction h generalizing t u with
  | number h =>
    exact fun _ => (Reads.number h).unexpanded hg ht hnames (.atom rfl) (.atom rfl) (.atom rfl)
  | text h =>
    exact fun _ => (Reads.text h).unexpanded hg ht hnames (.atom rfl) (.atom rfl) (.atom rfl)
  | @symbol _ _ name h =>
    have hatom : Value.isCons ((Datum.symbol name).build g u).1 = false := Symbol.isCons_atom _
    exact (Reads.symbol h).unexpanded hg ht hnames (.atom hatom)
      (.atom (by rw [Value.isCons_bare, hatom]))
  | quote h hinner _ => exact hinner.expanded_quote h hg ht hnames
  | @list _ _ _ ds h hinner ih =>
    rcases hcall : Value.isCall (s.macros g results) ((Datum.list ds).build g u).1 with - | -
    -- only here the elements are expanded; those of a call are read verbatim
    · exact Reads.expanded_list h hg ht hnames (fun t' ht' hnames' => ih ht' hnames') hcall
    · exact hinner.expanded_call h hg hpure ht hnames hcall
  | none h =>
    intro bound head items kept hbound _
    refine .const (fun self => elements_close self _ h hbound items) ⟨_, .nil, ?_⟩ ht hnames
    rw [Option.map_some, List.append_nil]
  | @more _ _ _ d ds h _ ih ih' =>
    intro bound head items kept hbound hahead
    cases kept with
    | zero =>
      obtain ⟨hcode, hapart⟩ := hahead.code
      -- the first element has an expansion if all have, and the others have one if it does not fail
      refine .more h hbound (hcode ▸ ih ht hnames hapart) (fun ⟨_, hr⟩ => hr.first)
        (fun bound' w t' hbound' hw ht' hnames' => ?_) ?_
      · have hothers := ih' ht' hnames' bound' head (items.push w) 0 hbound' (hahead.expand hw)
        refine ⟨fun rounds calls => (hothers.outcome rounds calls).mono ?_,
          fun ⟨_, hr⟩ => hothers.halts (hr.others hw)⟩
        rintro r ⟨r', hr', rfl⟩
        exact ⟨r'.map (w :: ·), hr'.more hw, by cases r' <;> simp⟩
      · exact fun hfails => ⟨.none, .fails hfails, rfl⟩
    | succ kept =>
      refine .more h hbound (h.verbatim hg ht hnames _ hahead.verbatim) (fun _ => trivial)
        (fun bound' w t' hbound' hw ht' hnames' => ?_) (by rintro ⟨⟩)
      have hw' : w.bare = Value.bare (d.build g u).1 := Option.some.inj hw
      have hothers := ih' ht' hnames' bound' head (items.push w) kept hbound' (hahead.keep hw')
      refine hothers.mono ?_
      rintro r ⟨r', hr', rfl⟩
      exact ⟨r'.map (w :: ·), hr'.keep hw', by cases r' <;> simp⟩

end Expanded

/-! ### One macro -/

namespace OneMacro

/-- The name of a macro that ignores its argument. -/
def ignore : Symbol := ⟨0, 0, "ignore", none⟩

/-- The name of a macro that has its argument done twice. -/
def twice : Symbol := ⟨1, 0, "twice", none⟩

/-- The parameter of a macro. -/
def x : Symbol := ⟨2, 0, "x", none⟩

/-- The head of a quoted form. -/
def quote : Symbol := ⟨3, 0, "quote", some (.form .quote)⟩

/-- The name of the function that makes lists. -/
def list : Symbol := ⟨4, 0, "list", none⟩

/-- The head of a sequence of forms. -/
def progn : Symbol := ⟨5, 0, "progn", some (.form .progn)⟩

/-- A store with the function that makes lists and with one macro, of one parameter. -/
def store (name : Symbol) (body : List Value) : Store :=
  { Store.empty .empty with
    frames := #[⟨0, none, [(list, .function (.native ⟨0, "list", .atLeast 0, .list⟩))],
      [(name, 0)]⟩]
    closures := #[⟨some name, ⟨[x], none⟩, body, 0⟩]
    realms := #[⟨⟨0, .preserve, ["progn", "list", "quote", "x", "twice", "ignore"], 0⟩, [], 0, 9⟩] }

variable (name : Symbol) {body : List Value} {ts : Template .items}

theorem hasGlobal (body : List Value) : (store name body).HasGlobal 0 := ⟨_, rfl, rfl⟩

/-- Only the name of the macro has an expander, the only closure. -/
theorem eq_zero_of_expander {head : Symbol} {index : Nat}
    (h : (store name body).expander? 0 head = some index) : index = 0 := by
  have hexpanders : ((store name body).frame 0).expanders = [(name, 0)] := rfl
  rw [Store.expander?, (hasGlobal name body).chain] at h
  simp only [List.findSome?_cons, List.findSome?_nil, hexpanders, Bindings.get?] at h
  by_cases hhead : name = head
  · rw [if_pos hhead] at h
    exact (Option.some.inj h).symm
  · rw [if_neg hhead] at h
    cases h

/-- The macro has no side effects if its body is a template. -/
theorem pureExpanders (h : ts.Written ((store name body).MakesLists 0) [x] body) :
    (store name body).PureExpanders 0 ((store name body).templateResults fun _ => ts) := by
  refine Store.pureExpanders_of_templates (hasGlobal name body) fun head index hindex => ?_
  obtain rfl := eq_zero_of_expander name hindex
  exact ⟨_, rfl, rfl, fun symbol _ => rfl, h⟩

/-- The body `(list (quote progn) x x)`. -/
def doubling : Value :=
  Value.bareList [.symbol list, Value.bareList [.symbol quote, .symbol progn], .symbol x, .symbol x]

/-- What a macro with this body makes of its argument. -/
def doubled : Template .items :=
  .more (.list (.more (.quoted (.symbol progn))
    (.more (.parameter x) (.more (.parameter x) .none)))) .none

theorem written_doubled :
    doubled.Written ((store name [doubling]).MakesLists 0) [x] [doubling] := by
  have hx : x ∈ [x] := List.mem_singleton_self x
  have hlists : (store name [doubling]).MakesLists 0 list :=
    ⟨rfl, ⟨0, "list", .atLeast 0, .list⟩, rfl, rfl, fun k => Nat.zero_le k⟩
  refine .more (.list hlists (by decide) ?_) .none
  exact .more (.quoted rfl) (.more (.parameter hx) (.more (.parameter hx) .none))

end OneMacro

/-! ### The agreement -/

/-- What a run for a form has concluded: the content of a form, or `none` for a fault.  A run that
was cut short has concluded nothing. -/
def conclusion? : Except Stop Value → Option (Option Value)
  | .ok v => some (some v.bare)
  | .error .unfinished | .error (.fault (.stackExhausted _)) => none
  | .error (.fault _) => some none

theorem conclusion?_of_short {stop : Stop} (h : stop.Short) : conclusion? (.error stop) = none := by
  cases h <;> rfl

theorem conclusion?_error {stop : Stop} {r : Option Value}
    (h : conclusion? (.error stop) = some r) : r = none := by
  unfold conclusion? at h
  split at h
  case h_1 heq => cases heq
  case h_4 => exact (Option.some.inj h).symm
  all_goals cases h

variable {s t : Store} {g : FrameId} {results : Nat → Expander}

/-- From some allowance on, a run concludes this. -/
def Concludes (x : Allowance → Except Stop Value) (r : Option Value) : Prop :=
  ∃ n, ∀ a : Allowance, n ≤ a.calls → n ≤ a.rounds → conclusion? (x a) = some r

/-- From some allowance on, a run ends because it exhausts the nesting limit. -/
def Exhausts (x : Allowance → Except Stop Value) : Prop :=
  ∃ n limit, ∀ a : Allowance, n ≤ a.calls → n ≤ a.rounds →
    x a = .error (.fault (.stackExhausted limit))

/-- What one run concludes with some allowance the other concludes with every large enough one,
unless it exhausts the nesting limit. -/
def Concurs (x y : Allowance → Except Stop Value) : Prop :=
  ∀ a r, conclusion? (x a) = some r → Concludes y r ∨ Exhausts y

/-- What has concluded nothing was cut short. -/
theorem short_of_conclusion? {x : Except Stop Value} (h : conclusion? x = none) :
    x = .error .unfinished ∨ ∃ limit, x = .error (.fault (.stackExhausted limit)) := by
  unfold conclusion? at h
  split at h
  case h_1 | h_4 => cases h
  case h_2 => exact .inl rfl
  case h_3 limit => exact .inr ⟨limit, rfl⟩

section Conclusions

variable {m : Recur → Run Value}

/-- A run that comes to an end concludes something, or exhausts the nesting limit. -/
theorem concludes_of_halts (h : Run.Halts (fun self _ => m self) t) :
    (∃ r, Concludes (fun a => (m a.run t).1) r) ∨ Exhausts fun a => (m a.run t).1 := by
  obtain ⟨x, hfinished, n, henough⟩ := h
  have hrun : ∀ a : Allowance, n ≤ a.calls → n ≤ a.rounds → m a.run t = x :=
    fun a hcalls hrounds => henough a.rounds a.calls n hrounds hcalls (Nat.le_refl n)
  rcases hx : conclusion? x.1 with - | r
  · rcases short_of_conclusion? hx with hx | ⟨limit, hx⟩
    · exact absurd hx hfinished
    · refine .inr ⟨n, limit, fun a hcalls hrounds => ?_⟩
      exact (congrArg Prod.fst (hrun a hcalls hrounds)).trans hx
  · refine .inl ⟨r, n, fun a hcalls hrounds => ?_⟩
    exact (congrArg (conclusion? ·.1) (hrun a hcalls hrounds)).trans hx

/-- It concludes what it can only conclude. -/
theorem concludes_of_forall (h : Run.Halts (fun self _ => m self) t) {r : Option Value}
    (honly : ∀ (a : Allowance) r', conclusion? (m a.run t).1 = some r' → r' = r) :
    Concludes (fun a => (m a.run t).1) r ∨ Exhausts fun a => (m a.run t).1 := by
  refine (concludes_of_halts h).imp_left ?_
  rintro ⟨r', n, hr'⟩
  obtain rfl := honly ⟨n, n⟩ r' (hr' ⟨n, n⟩ (Nat.le_refl n) (Nat.le_refl n))
  exact ⟨n, hr'⟩

/-- A run that has concluded something does not exhaust the nesting limit with a larger
allowance. -/
theorem not_exhausts_of_conclusion? (hm : Run.Steady m t) {a : Allowance} {r : Option Value}
    (h : conclusion? (m a.run t).1 = some r) : ¬ Exhausts fun a => (m a.run t).1 := by
  rintro ⟨n, limit, hexhausts⟩
  have hfinished : (m (run a.rounds a.calls) t).1 ≠ .error .unfinished := by
    intro hunfinished
    have hnone : conclusion? (m a.run t).1 = none := congrArg conclusion? hunfinished
    rw [h] at hnone
    cases hnone
  obtain ⟨-, n', henough⟩ := Run.ComesTo.of_finished hm hfinished
  have hlast := hexhausts ⟨max n n', max n n'⟩ (Nat.le_max_left n n') (Nat.le_max_left n n')
  have hsame : m (run (max n n') (max n n')) t = m (run a.rounds a.calls) t :=
    henough _ _ n' (Nat.le_max_right n n') (Nat.le_max_right n n') (Nat.le_refl n')
  have hnone : conclusion? (m a.run t).1 = none :=
    congrArg conclusion? ((congrArg Prod.fst hsame).symm.trans hlast)
  rw [h] at hnone
  cases hnone

end Conclusions

theorem Run.Outcome.of_conclusion? {P : Option Value → Prop} {x : Except Stop Value × Store}
    (h : Run.Outcome s g (fun r => P (r.map Value.bare)) t x) {r : Option Value}
    (hr : conclusion? x.1 = some r) : P r := by
  cases h with
  | ok ha => cases hr; exact ha
  | fault ha => cases conclusion?_error hr; exact ha
  | short hstop => cases (conclusion?_of_short hstop).symm.trans hr

theorem Reading.Outcome.of_conclusion? {names : Store} {rest : Source} {P : Option Value → Prop}
    {a : Allowance} {e : Engine} {content : String}
    (h : Reading.Outcome s g rest names (fun r => P (r.map Value.bare))
      (a.run.form .code e.global content.toList s)) {r : Option Value}
    (hr : conclusion? (e.readForm a content s).1 = some r) : P r := by
  generalize hx : a.run.form .code e.global content.toList s = x at h
  -- reading a text hands on how the form was read
  cases h with
  | ok ha =>
    rw [Engine.readForm, Run.bind_apply_ok hx] at hr
    cases hr
    exact ha
  | fault ha =>
    rw [Engine.readForm, Run.bind_apply_ok hx] at hr
    cases conclusion?_error hr
    exact ha
  | cut hf =>
    rw [Engine.readForm, Run.bind_apply_ok hx] at hr
    cases (conclusion?_of_short hf).symm.trans hr
  | unfinished =>
    rw [Engine.readForm, Run.bind_apply_error hx] at hr
    cases hr

/-- Reading the first form of a text comes to an end if reading a form does. -/
theorem halts_readForm {source : Source}
    (h : Run.Halts (fun self _ => self.form .code g source) s) :
    Run.Halts (fun self _ => self.form .code g source >>= fun p => Run.ofExcept p.1) s := by
  obtain ⟨x, hx⟩ := h
  refine .after hx fun p t _ => ?_
  rcases p.1 with f | v
  · exact ⟨_, .fault rfl⟩
  · exact ⟨_, .ok rfl⟩

/-- Reading a form as code and expanding the data that is written there come to the same end, if
the expanders have no side effects and macro calls are apart from each other: to forms of the same
content, or to a fault.

* They conclude nothing different, with whatever allowances.
* What one of them concludes with some allowance, the other concludes with every large enough one,
  unless it exhausts the nesting limit.
* It is what the data expands to from the outside inwards, every expander being given the argument
  forms as they are written; and whatever the data expands to is concluded. -/
theorem readForm_agrees (e : Engine) (hg : s.HasGlobal e.global)
    (hpure : s.PureExpanders e.global results) {a : Allowance} {content : String}
    {v : Value} {rest : Source}
    (hdata : a.run.form .data e.global content.toList s = (.ok (.ok v, rest), t))
    (hapart : v.CallsApart (s.macros e.global results) true) :
    let read (a : Allowance) := (e.readForm a content s).1
    let expand (a : Allowance) := (a.run (.expand v e.global) t).1
    let Expected := Expands (s.macros e.global results) (p := .form) v.bare
    (∀ a a' r r', conclusion? (read a) = some r → conclusion? (expand a') = some r' → r' = r) ∧
      Concurs read expand ∧ Concurs expand read ∧
      (∀ a r, conclusion? (read a) = some r → Expected r) ∧
      ∀ r, Expected r → Concludes read r ∨ Exhausts read := by
  intro read expand Expected
  obtain ⟨d, hd, hcalls, hroom⟩ := reads_of_form hdata
  obtain ⟨-, rfl, rfl⟩ := hd.eq_of_form hcalls hroom hdata
  have hcode := hd.expanded hg hpure (.refl s) (.refl e.global s) hapart
  have hbuilt := (Store.Grown.refl s).build d e.global
  -- both conclude only what is expected, and both come to an end if something is
  have hread : ∀ a r, conclusion? (read a) = some r → Expected r := fun a r hr =>
    (hcode.outcome a.rounds a.calls).of_conclusion? hr
  have hexpand : ∀ a r, conclusion? (expand a) = some r → Expected r := fun a r hr =>
    (run_expand hg hpure a.rounds a.calls (d.build e.global s).1 _ hbuilt).of_conclusion? hr
  have hread' : ∀ r, Expected r → Concludes read r ∨ Exhausts read := fun r hr =>
    concludes_of_forall (halts_readForm (hcode.halts ⟨r, hr⟩))
      fun a r' hr' => (hread a r' hr').unique hr
  have hexpand' : ∀ r, Expected r → Concludes expand r ∨ Exhausts expand := fun r hr =>
    concludes_of_forall (hr.halts hg hpure hbuilt) fun a r' hr' => (hexpand a r' hr').unique hr
  refine ⟨fun a a' r r' hr hr' => (hexpand a' r' hr').unique (hread a r hr),
    fun a r hr => hexpand' r (hread a r hr), fun a r hr => hread' r (hexpand a r hr), hread, hread'⟩

/-- A macro call among the arguments of a function is expanded while it is read: its argument forms
are put into the body of the macro as they are written. -/
theorem readForm_agrees_twice :
    let s := OneMacro.store OneMacro.twice [OneMacro.doubling]
    let results := s.templateResults fun _ => OneMacro.doubled
    let f : Value := .symbol ⟨6, 0, "f", none⟩
    let g : Value := .symbol ⟨7, 0, "g", none⟩
    let call : Value := .cons 1 g (.cons 0 (.number 7) .nil)
    let v : Value :=
      .cons 5 f (.cons 4 (.cons 3 (.symbol OneMacro.twice) (.cons 2 call .nil)) .nil)
    let e : Engine := ⟨0, 0⟩
    let a : Allowance := ⟨20, 20⟩
    let content := "(f (twice (g 7)))"
    let t := (a.run.form .data 0 content.toList s).2
    let expanded := Value.bareList [f, Value.bareList [.symbol OneMacro.progn, call, call]]
    s.HasGlobal 0 ∧ s.PureExpanders 0 results ∧
      a.run.form .data 0 content.toList s = (.ok (.ok v, []), t) ∧
      v.CallsApart (s.macros 0 results) true ∧
      conclusion? (e.readForm a content s).1 = some (some expanded) ∧
      conclusion? (a.run (.expand v 0) t).1 = some (some expanded) ∧
      Expands (s.macros 0 results) (p := .form) v.bare (some expanded) ∧
      Concludes (fun a => (e.readForm a content s).1) (some expanded) ∧
      Concludes (fun a => (a.run (.expand v 0) t).1) (some expanded) := by
  intro s results f g call v e a content t expanded
  have hglobal : s.HasGlobal 0 := OneMacro.hasGlobal _ _
  have hpure : s.PureExpanders 0 results :=
    OneMacro.pureExpanders _ (OneMacro.written_doubled OneMacro.twice)
  have hdata : a.run.form .data 0 content.toList s = (.ok (.ok v, []), t) :=
    Prod.ext (by decide +kernel) rfl
  have hread : conclusion? (e.readForm a content s).1 = some (some expanded) := by decide +kernel
  have hexpand : conclusion? (a.run (.expand v 0) t).1 = some (some expanded) := by decide +kernel
  have hatom : ∀ {calls w}, w.isCons = false → Value.CallsApart (s.macros 0 results) calls w :=
    fun h => .atom h
  -- within the argument forms of the macro call there is no other
  have hinner : call.CallsApart (s.macros 0 results) false := by
    refine ⟨by rintro _ ⟨⟩; rfl, by rintro ⟨⟩, by rintro _ ⟨⟩ ⟨⟩, ?_⟩
    rintro (- | - | place) w hw - <;> cases hw <;> exact hatom rfl
  -- the macro call stands among the arguments of a function
  have hcall : (Value.cons 3 (.symbol OneMacro.twice) (.cons 2 call .nil)).CallsApart
      (s.macros 0 results) true := by
    refine ⟨by rintro _ ⟨⟩; rfl, fun _ => ⟨rfl, by rintro ⟨⟩⟩, by rintro _ ⟨⟩ ⟨⟩, ?_⟩
    rintro (- | - | place) w hw - <;> cases hw
    · exact hatom rfl
    · exact hinner
  have hapart : v.CallsApart (s.macros 0 results) true := by
    refine ⟨by rintro _ ⟨⟩; rfl, by rintro ⟨⟩, by rintro _ ⟨⟩ ⟨⟩, ?_⟩
    rintro (- | - | place) w hw - <;> cases hw
    · exact hatom rfl
    · exact hcall
  obtain ⟨-, hconcurs, -, hexpected, hconcludes⟩ := readForm_agrees e hglobal hpure hdata hapart
  have hexpands := hexpected a _ hread
  refine ⟨hglobal, hpure, hdata, hapart, hread, hexpand, hexpands, ?_, ?_⟩
  · -- either has concluded something, so the limit is not in its way
    refine (hconcludes _ hexpands).resolve_right ?_
    exact not_exhausts_of_conclusion? (fun hself => (Lockstep.nextForm hself .code 0).bind_run
      (fun p => Lockstep.ofExcept p.1) (fun _ _ _ => rfl) content.toList) hread
  · refine (hconcurs a _ hread).resolve_right ?_
    exact not_exhausts_of_conclusion? (fun hself => hself (.expand v 0)) hexpand

/-- Reading a text as code comes to one end, and expanding the data that is written there to
another, though no expander has side effects. -/
structure Disagree (s : Store) (content : String) (v : Value) (r r' : Option Value) : Prop where
  hasGlobal : s.HasGlobal 0
  pureExpanders : ∃ results, s.PureExpanders 0 results
  data : ((Allowance.run ⟨9, 9⟩).form .data 0 content.toList s).1 = .ok (.ok v, [])
  read : conclusion? ((Engine.mk 0 0).readForm ⟨9, 9⟩ content s).1 = some r
  expand : conclusion? (Allowance.run ⟨9, 9⟩ (.expand v 0)
    ((Allowance.run ⟨9, 9⟩).form .data 0 content.toList s).2).1 = some r'
  ne : r ≠ r'

/-- Reading as code and expanding the data come to different ends where a macro call stands among
the arguments of another, where it stands in the place of the name of a function, where it gives the
symbol at the head of a list, and where it is written with the quote mark. -/
theorem readForm_disagrees :
    let ignore : Value := .symbol OneMacro.ignore
    let quote : Value := .symbol OneMacro.quote
    let defun : Value := .symbol ⟨6, 0, "defun", some (.form .defun)⟩
    let nothing := OneMacro.store OneMacro.ignore []
    let quoting := OneMacro.store OneMacro.ignore [Value.bareList [quote, quote]]
    let unquoting := OneMacro.store OneMacro.quote []
    Disagree nothing "(ignore (ignore))" (.cons 2 ignore (.cons 1 (.cons 0 ignore .nil) .nil))
        none (some .nil) ∧
      Disagree nothing "(defun (ignore))"
        (.cons 2 defun (.cons 1 (.cons 0 ignore .nil) .nil))
        none (some (Value.bareList [defun, Value.bareList [ignore]])) ∧
      Disagree quoting "((ignore 5) (ignore 6))"
        (.cons 5 (.cons 1 ignore (.cons 0 (.number 5) .nil))
          (.cons 4 (.cons 3 ignore (.cons 2 (.number 6) .nil)) .nil))
        (some (Value.bareList [quote, Value.bareList [ignore, .number 6]]))
        (some (Value.bareList [quote, quote])) ∧
      Disagree unquoting "'5" (.cons 1 quote (.cons 0 (.number 5) .nil))
        (some (Value.bareList [quote, .number 5])) (some .nil) := by
  intro ignore quote defun nothing quoting unquoting
  have hempty : ∀ name, ∃ results, (OneMacro.store name []).PureExpanders 0 results :=
    fun name => ⟨_, OneMacro.pureExpanders name .none⟩
  have hquoted : ∃ results, quoting.PureExpanders 0 results :=
    ⟨_, OneMacro.pureExpanders OneMacro.ignore (.more (.quoted rfl) .none)⟩
  -- in all four stores the macro has no side effects; what is left to show is computed
  refine ⟨⟨OneMacro.hasGlobal _ _, hempty _, ?_, ?_, ?_, ?_⟩,
    ⟨OneMacro.hasGlobal _ _, hempty _, ?_, ?_, ?_, ?_⟩,
    ⟨OneMacro.hasGlobal _ _, hquoted, ?_, ?_, ?_, ?_⟩,
    ⟨OneMacro.hasGlobal _ _, hempty _, ?_, ?_, ?_, ?_⟩⟩
  all_goals decide +kernel

end PocketLisp
