/-
PocketLisp/Proofs/Draining.lean

Reading a port to its end.

While a form is read from a port, the port is held, so the text is not read in
the store in which it could be read at once.  A run that does nothing with the
port does not see the difference (`run_besides`).  And what is put back when a
form has been read is what is held when the next one is, so that the forms are
those of the text, one after the other (`times_of_drains`).

Main result: if all forms of the text of a port can be read without an operation
on that port, in the state in which the port is read, these are the forms that
the port gives, and after them it gives the marker (`port_drained`).  The marker
is a symbol, which may also stand in the text; an expander may try to use the
port; and where the port is read by evaluating a form, there is room for one
nested step less than outside of it (`port_not_drained`).
-/
import PocketLisp.Proofs.Grammar
import PocketLisp.Proofs.Later
import PocketLisp.Proofs.Ports

namespace PocketLisp

variable {α β : Type} {s t : Store} {k port : Nat} {source : Source}

/-! ### Stores without a port -/

namespace PortTable

theorem remove_remove (t : PortTable) (port other : Nat) :
    (t.remove port).remove other = (t.remove other).remove port := by
  simp only [remove, List.filter_filter, Bool.and_comm]

theorem putBack_remove {port other : Nat} (h : other ≠ port) (t : PortTable) (source : Source) :
    (t.remove port).putBack other source = (t.putBack other source).remove port := by
  simp only [remove, putBack, List.filter_cons, bne_iff_ne, ne_eq, h, not_false_eq_true, if_true]

theorem openOn_remove {port : Nat} {t : PortTable} (h : port ≤ t.opened) (source : Source) :
    ((t.remove port).openOn source).2 = (t.openOn source).2.remove port := by
  have hne : t.opened + 1 ≠ port := by omega
  simp only [remove, openOn, List.filter_cons, bne_iff_ne, ne_eq, hne, not_false_eq_true, if_true]

/-- A port that is not in the table is put back into it and taken out again. -/
theorem remove_putBack {port : Nat} {t : PortTable} (h : t.source? port = none)
    (source : Source) : (t.putBack port source).remove port = t := by
  have hkept : t.ports.filter (fun p => p.1 != port) = t.ports := by
    refine List.filter_eq_self.mpr fun p hp => bne_iff_ne.mpr fun heq => ?_
    exact source?_eq_none_iff.mp h (List.mem_map.mpr ⟨p, hp, heq⟩)
  simp only [remove, putBack, List.filter_cons, bne_self_eq_false, Bool.false_eq_true, if_false,
    hkept]

end PortTable

namespace Store

variable {table : Nat} {f g : PortTable → PortTable}

/-- Changes of tables can be made the other way round if they can where they are of one table. -/
theorem modifyPorts_comm (h : table = k → g (f (s.portTable k)) = f (g (s.portTable k))) :
    (s.modifyPorts k f).modifyPorts table g = (s.modifyPorts table g).modifyPorts k f := by
  have htables : (s.portTables.modify k f).modify table g =
      (s.portTables.modify table g).modify k f := by
    refine Array.ext_getElem? fun i => ?_
    simp only [Array.getElem?_modify]
    -- only where both tables are the same one do the two changes meet
    by_cases hk : k = i <;> by_cases htable : table = i <;>
      simp only [hk, htable, if_true, if_false]
    rcases hi : s.portTables[i]? with - | t
    · rfl
    · have ht : s.portTable i = t := by
        rw [portTable, Array.getD_eq_getD_getElem?, hi]
        rfl
      have hboth := h (htable.trans hk.symm)
      rw [hk, ht] at hboth
      exact congrArg some hboth
  simp only [modifyPorts, htables]

theorem modifyPorts_congr (h : f (s.portTable k) = g (s.portTable k)) :
    s.modifyPorts k f = s.modifyPorts k g := by
  have htables : s.portTables.modify k f = s.portTables.modify k g := by
    refine Array.ext_getElem? fun i => ?_
    simp only [Array.getElem?_modify]
    split
    · next hi =>
      subst hi
      rcases ht : s.portTables[k]? with - | t
      · rfl
      · rw [portTable, Array.getD_eq_getD_getElem?, ht] at h
        exact congrArg some h
    · rfl
  simp only [modifyPorts, htables]

/-- Where a port is not open, it makes no difference to put it back and hold it. -/
theorem holding_returning (h : (s.portTable k).source? port = none) (source : Source) :
    (s.returning k port source).holding k port = s := by
  have htables : (s.portTables.modify k fun t => t.putBack port source).modify k
      (fun t => t.remove port) = s.portTables := by
    refine Array.ext_getElem? fun i => ?_
    simp only [Array.getElem?_modify]
    split
    · next hi =>
      subst hi
      rcases ht : s.portTables[k]? with - | t
      · rfl
      · rw [portTable, Array.getD_eq_getD_getElem?, ht] at h
        exact congrArg some (PortTable.remove_putBack h source)
    · rfl
  simp only [holding, returning, modifyPorts, htables]

theorem opened_holding (s : Store) (k port table : Nat) :
    ((s.holding k port).portTable table).opened = (s.portTable table).opened := by
  rw [holding, portTable_modifyPorts]
  split <;> rfl

theorem openPort_eq (s : Store) (table : Nat) (source : Source) :
    s.openPort table source = ((s.portTable table).opened + 1,
      s.modifyPorts table fun t => (t.openOn source).2) :=
  Prod.ext rfl (modifyPorts_congr rfl)

theorem source?_holding_of_ne {table other : Nat} (h : (table, other) ≠ (k, port)) (s : Store) :
    ((s.holding k port).portTable table).source? other =
      (s.portTable table).source? other := by
  rw [holding, portTable_modifyPorts]
  split
  · next hk =>
    obtain ⟨rfl, -⟩ := hk
    rw [PortTable.source?_remove, if_neg fun heq => h (by rw [heq])]
  · rfl

end Store

/-! ### Runs beside a port -/

/-- The tables while a port is being read. -/
def holdingIn (k port : Nat) (tables : Array PortTable) : Array PortTable :=
  tables.modify k fun t => t.remove port

theorem Store.holding_eq (s : Store) (k port : Nat) :
    s.holding k port = s.mapPorts (holdingIn k port) := rfl

theorem OperatesIn.tables {P : FrameId → Prop} {f : Store → α × Store} (h : OperatesIn P f)
    (s : Store) (tables : Array PortTable) :
    f { s with portTables := tables } = ((f s).1, { (f s).2 with portTables := tables }) := by
  cases h with
  | read hf => exact congrArg (·, { s with portTables := tables }) (hf s tables)
  | countCall i =>
    simp only [Store.countCall]
    split <;> rfl
  | _ => rfl

theorem OperatesApart.tables {f : Store → α × Store} (h : OperatesApart f)
    (s : Store) (tables : Array PortTable) :
    f { s with portTables := tables } = ((f s).1, { (f s).2 with portTables := tables }) := by
  cases h with
  | operates h => exact h.tables s tables
  | setBusy channel i busy => rfl

/-- It makes no difference to an operation whether a port is held. -/
def Beside (k port : Nat) (f : Store → α × Store) : Prop :=
  ∀ s, port ≤ (s.portTable k).opened →
    f (s.mapPorts (holdingIn k port)) = ((f s).1, (f s).2.mapPorts (holdingIn k port)) ∧
      port ≤ ((f s).2.portTable k).opened

theorem OperatesApart.beside {f : Store → α × Store} (h : OperatesApart f) : Beside k port f := by
  intro s hs
  have hsame := h.tables s (holdingIn k port s.portTables)
  have htables := h.portTables s
  refine ⟨hsame.trans ?_, Nat.le_trans hs ((leads_opened k).operation (.apart h) s).2⟩
  rw [Store.mapPorts, htables]

theorem OperatesOn.beside {f : Store → α × Store} (h : OperatesOn (· ≠ (k, port)) f) :
    Beside k port f := by
  intro s hs
  have hopened := ((leads_opened k).operation ((Handles.on h).mono fun _ _ => trivial) s).2
  refine ⟨?_, Nat.le_trans hs hopened⟩
  -- all of these operate on another port, or open a new one
  cases h with
  | operates h => exact (OperatesApart.beside (.operates h) s hs).1
  | readFile path => rfl
  | openPort table source =>
    simp only [Store.openPort_eq, ← Store.holding_eq, Store.opened_holding]
    refine Prod.ext rfl (Store.modifyPorts_comm fun htable => ?_)
    exact PortTable.openOn_remove hs _
  | source? h => exact congrArg (·, s.holding k port) (Store.source?_holding_of_ne h s)
  | remove h =>
    refine Prod.ext rfl (Store.modifyPorts_comm fun _ => ?_)
    exact PortTable.remove_remove _ _ _
  | @putBack table other source h =>
    -- what is put back is another port than the one that is held
    refine Prod.ext rfl (Store.modifyPorts_comm fun htable => ?_)
    exact PortTable.putBack_remove (fun heq => h (by rw [htable, heq])) _ _

/-- A run that neither reads from a port nor closes it does the same while the port is held. -/
theorem run_besides (rounds calls : Nat) (c : Call α) :
    Follows (fun s => port ≤ (s.portTable k).opened) (holdingIn k port)
      (runStopping (.leaving k port) rounds calls c) (run rounds calls c) := by
  -- on the calls; a call that operates on the port stops the first run
  induction calls generalizing α with
  | zero => exact fun s _ => .inl rfl
  | succ calls ih =>
    intro s hs
    by_cases hc : c.port? = some (k, port)
    · have hrule : StopRule.leaving k port c s = some .unfinished := if_pos hc
      exact .inl (by rw [runStopping_of_some hrule])
    · have hrule : StopRule.leaving k port c s = none := if_neg hc
      rw [runStopping_of_none hrule]
      refine Follows.nested (J := fun s => port ≤ (s.portTable k).opened) c ?_ (fun _ _ hs => hs)
        (fun _ _ hs => hs) s hs
      -- what is delivered to is given in the store, not in the call
      cases hemit : c.isEmit with
      | false =>
        have hperform := perform_composed_on (T := (· ≠ (k, port))) rounds c hemit
          fun _ hother heq => hc (heq ▸ hother)
        exact hperform.follows (fun hf => hf.beside) ih
      | true =>
        cases c with
        | emit channel content =>
          exact (Composed.emit channel content).follows (fun hf => hf.beside) ih
        | _ => cases hemit

/-! ### All forms of a text -/

theorem ComposedOf.drainFrom {P : FrameId → Prop} {env : FrameId} (henv : P env) (mode : Mode)
    (fuel : Nat) (forms : List Value) :
    ReadComposedIn P fun self => Run.drainFrom self mode env fuel forms := by
  induction fuel generalizing forms with
  | zero => exact ReadComposedOf.throw _
  | succ fuel ih =>
    intro source
    show ComposedIn P fun self => (if source.skip.isEmpty then Pure.pure forms.reverse
      else self.form mode env >>= fun v =>
        Run.drainFrom self mode env fuel (v :: forms) : Reading (List Value)) source.skip
    cases source.skip.isEmpty with
    | true => exact .pure _
    | false =>
      have hnext := ComposedOf.nextForm mode henv
      exact ReadComposedOf.bind hnext (fun v => ih (v :: forms)) source.skip

theorem Composed.readAll (env : FrameId) (text : Source) :
    Composed OperatesApart fun self => Run.readAll self env text :=
  apart_of_in (ComposedOf.drainFrom (P := fun _ => True) trivial .code (text.length + 1) [] text)

section

variable {rounds calls : Nat} {env : FrameId} {text rest : Source}
  {forms : Except Fault (List Value)}
  (h : Run.readAll (runStopping (.leaving k port) rounds calls) env text s = (.ok (forms, rest), t))
include h

/-- A text that can be read without a port is read so. -/
theorem readAll_of_leaving {entry : Option Source} (hs : (s.portTable k).Has port entry) :
    Run.readAll (run rounds calls) env text s = (.ok (forms, rest), t) := by
  have hfollows := (Composed.readAll env text).follows
    (J := fun s => (s.portTable k).Has port entry)
    (fun hf s hs => ⟨rfl, (Handles.apart hf).keeps_entry s hs⟩)
    (fun c => run_leaving rounds calls c)
  rcases hfollows.of_id hs with hend | ⟨hsame, -⟩
  · rw [h] at hend
    cases hend
  · rw [← hsame, h]

/-- And it is read in the same way while the port is held. -/
theorem readAll_beside (hs : port ≤ (s.portTable k).opened) :
    Run.readAll (run rounds calls) env text (s.holding k port) =
      (.ok (forms, rest), t.holding k port) := by
  have hfollows := (Composed.readAll env text).follows (J := fun s => port ≤ (s.portTable k).opened)
    (fun hf => hf.beside) (fun c => run_besides rounds calls c)
  rcases hfollows s hs with hend | ⟨hsame, -⟩
  · rw [h] at hend
    cases hend
  · rw [h] at hsame
    exact hsame

end

/-- The forms of a text are read one after the other. -/
inductive Drains (self : Recur) (env : FrameId) : Source → Store → List Value → Store → Prop
  | done {source : Source} {s : Store} : source.skip = [] → Drains self env source s [] s
  | form {source rest : Source} {s t u : Store} {v : Value} {vs : List Value} :
      source.skip ≠ [] → self.form .code env source.skip s = (.ok (.ok v, rest), t) →
        Drains self env rest t vs u → Drains self env source s (v :: vs) u

theorem drains_of_drainFrom {self : Recur} {env : FrameId} {fuel : Nat} {forms ws : List Value}
    {rest : Source}
    (h : Run.drainFrom self .code env fuel forms source s = (.ok (.ok ws, rest), t)) :
    ∃ vs, ws = forms.reverse ++ vs ∧ Drains self env source s vs t := by
  -- on the fuel, as the forms that have been read are collected
  induction fuel generalizing forms source s with
  | zero => cases h
  | succ fuel ih =>
    by_cases hempty : source.skip = []
    · rw [drainFrom_nil self .code fuel forms hempty] at h
      cases h
      exact ⟨[], (List.append_nil _).symm, .done hempty⟩
    · rw [drainFrom_succ, if_neg (mt List.isEmpty_iff.mp hempty)] at h
      rcases hform : self.form .code env source.skip s with ⟨e | ⟨f | v, middle⟩, u⟩
      · -- the form is not read to its end, refused, or read
        rw [Reading.bind_apply_stop hform] at h
        cases h
      · rw [Reading.bind_apply_fault hform] at h
        cases h
      · rw [Reading.bind_apply_ok hform] at h
        obtain ⟨vs, rfl, hdrains⟩ := ih h
        refine ⟨v :: vs, ?_, .form hempty hform hdrains⟩
        rw [List.reverse_cons, List.append_assoc, List.singleton_append]

theorem drains_of_readAll {self : Recur} {env : FrameId} {vs : List Value} {rest : Source}
    (h : Run.readAll self env source s = (.ok (.ok vs, rest), t)) :
    Drains self env source s vs t := by
  obtain ⟨_, rfl, hdrains⟩ := drains_of_drainFrom h
  exact hdrains

/-! ### Reading one form after the other -/

/-- What is the same as a symbol is the symbol. -/
theorem Value.same_symbol {v : Value} {symbol : Symbol} :
    v.same (.symbol symbol) = true ↔ v = .symbol symbol := by
  cases v <;> simp [same]

/-- Does something so often, for the results. -/
def Run.times (m : Run α) : Nat → Run (List α)
  | 0 => pure []
  | n + 1 => do
    let a ← m
    let rest ← times m n
    return a :: rest

/-- The forms that are read until one is found to be the marker, of `bound` at most. -/
def Run.drainUntil (read : Run Value) (isEnd : Value → Run Value) : (bound : Nat) → Run (List Value)
  | 0 => unfinished
  | bound + 1 => do
    let form ← read
    if (← isEnd form).isTrue then return []
    else return form :: (← drainUntil read isEnd bound)

/-- What succeeds so often has succeeded less often. -/
theorem Run.times_take {m : Run α} {count more : Nat} {results : List α}
    (h : m.times (count + more) s = (.ok results, t)) :
    ∃ u, m.times count s = (.ok (results.take count), u) := by
  induction count generalizing s results with
  | zero => exact ⟨s, rfl⟩
  | succ count ih =>
    rw [Nat.add_right_comm] at h
    obtain ⟨a, u, hfirst, h⟩ := bind_eq_ok h
    obtain ⟨rest, u', hrest, h⟩ := bind_eq_ok h
    cases h
    obtain ⟨w, hw⟩ := ih hrest
    exact ⟨w, (bind_apply_ok hfirst).trans (bind_apply_ok hw)⟩

/-- A store that has come about from another one, in which a port is held. -/
structure Store.Held (s : Store) (k port : Nat) (t : Store) : Prop where
  later : s.Later t
  inRange : k < t.portTables.size
  closed : (t.portTable k).Has port none

section Reading

variable {rounds calls : Nat} {n m : Native} {marker : Symbol} {v : Value} {env : FrameId}

/-- Whether a form is the marker. -/
theorem isEnd_apply (hm : m.Does (.isMarker marker)) (form : Value) (s : Store) :
    run rounds (calls + 1) (.apply (.native m) [form] env) s =
      (.ok (.ofBool (form.same (.symbol marker))), s) := by
  rw [@run_native m [form] hm.check, hm.body]
  rfl

/-- Reading a form leaves the port held. -/
theorem Store.Held.form (h : s.Held k port t) {text rest : Source} {form : Except Fault Value}
    {u : Store} (hform : (run rounds calls).form .code env text t = (.ok (form, rest), u)) :
    s.Held k port u := by
  have hnext : Composed OperatesOrMarks fun self => self.form .code env text :=
    (Composed.of_in (ComposedOf.nextForm .code trivial text)).mono .operates
  have hlater := hnext.leads Store.leads_later (fun c t => run_later rounds calls c t) t
  obtain ⟨-, hread⟩ := form_held StopRule.idle_refusing h.inRange h.closed rounds calls env text
  rw [hform] at hlater hread
  rcases hread with hunfinished | ⟨_, _, _, hread, -, hinRange, hclosed⟩
  · cases hunfinished
  · cases hread
    exact ⟨h.later.trans hlater, hinRange, hclosed⟩

variable (hn : n.Does (.readPort k marker)) (hv : v.index? = some port)
include hn hv

/-- Reading at the end of the text. -/
theorem read_of_end (h : s.Held k port t) (hsource : source.skip = []) :
    run rounds (calls + 1) (.apply (.native n) [v] env) (t.returning k port source) =
      (.ok (.symbol marker), t.returning k port []) := by
  have hopen := (Store.has_returning h.inRange h.closed source).source?
  rw [run_read hn.body hn.check, Run.Port.next_of_open hv hopen, hsource,
    Store.holding_returning h.closed.source?]
  rfl

/-- Reading a form. -/
theorem read_of_form (h : s.Held k port t) (hsource : source.skip ≠ []) {form : Value}
    {rest : Source} {u : Store}
    (hform : (run rounds calls).form .code (t.global env) source.skip t =
      (.ok (.ok form, rest), u)) :
    run rounds (calls + 1) (.apply (.native n) [v] env) (t.returning k port source) =
      (.ok form, u.returning k port rest) := by
  have hopen := (Store.has_returning h.inRange h.closed source).source?
  have hglobal : (t.returning k port source).global env = t.global env := rfl
  have hempty : source.skip.isEmpty = false := List.isEmpty_eq_false_iff.mpr hsource
  rw [run_read hn.body hn.check, Run.Port.next_of_open hv hopen, hempty,
    Store.holding_returning h.closed.source?, hglobal, hform]
  rfl

variable (hs : s.Sound) (henv : env < s.frames.size)
include hs henv

/-- Reading so often, or more often, as there are forms. -/
theorem times_of_drains {vs : List Value} {u : Store} (h : s.Held k port t)
    (hdrains : Drains (run rounds calls) (s.global env) source t vs u) (more : Nat) :
    (run rounds (calls + 1) (.apply (.native n) [v] env)).times (vs.length + (more + 1))
        (t.returning k port source) =
      (.ok (vs ++ List.replicate (more + 1) (.symbol marker)), u.returning k port []) := by
  induction hdrains with
  | @done source t hsource =>
    -- nothing is left, and that stays so
    have hend : ∀ more, (run rounds (calls + 1) (.apply (.native n) [v] env)).times more
        (t.returning k port []) =
          (.ok (List.replicate more (.symbol marker)), t.returning k port []) := by
      intro more
      induction more with
      | zero => rfl
      | succ more ih =>
        exact (Run.bind_apply_ok (read_of_end hn hv h rfl)).trans (Run.bind_apply_ok ih)
    rw [List.length_nil, Nat.zero_add]
    exact (Run.bind_apply_ok (read_of_end hn hv h hsource)).trans (Run.bind_apply_ok (hend more))
  | @form source rest t t' u form vs hsource hform hdrains ih =>
    -- a form is read from the port, and the others after it
    have hglobal := h.later.global_eq hs henv
    have hread := read_of_form hn hv h hsource (hglobal ▸ hform)
    rw [List.length_cons, Nat.add_right_comm]
    exact (Run.bind_apply_ok hread).trans (Run.bind_apply_ok (ih (h.form hform)))

/-- Reading until a form is found to be the marker. -/
theorem drainUntil_of_drains (hm : m.Does (.isMarker marker)) {vs : List Value} {u : Store}
    (h : s.Held k port t)
    (hdrains : Drains (run rounds calls) (s.global env) source t vs u)
    (hmarker : .symbol marker ∉ vs) :
    Run.drainUntil (run rounds (calls + 1) (.apply (.native n) [v] env))
        (fun form => run rounds (calls + 1) (.apply (.native m) [form] env)) (vs.length + 1)
        (t.returning k port source) = (.ok vs, u.returning k port []) := by
  induction hdrains with
  | @done source t hsource =>
    -- the marker is read, and found to be it
    refine (Run.bind_apply_ok (read_of_end hn hv h hsource)).trans ?_
    refine (Run.bind_apply_ok (isEnd_apply hm _ _)).trans ?_
    rw [Value.same_symbol.mpr rfl]
    rfl
  | @form source rest t t' u form vs hsource hform hdrains ih =>
    -- a form is read that is not the marker
    obtain ⟨hne, hothers⟩ := not_or.mp (mt List.mem_cons.mpr hmarker)
    have hglobal := h.later.global_eq hs henv
    have hread := read_of_form hn hv h hsource (hglobal ▸ hform)
    have hform' : form.same (.symbol marker) = false :=
      Bool.eq_false_iff.mpr fun hsame => hne (Value.same_symbol.mp hsame).symm
    refine (Run.bind_apply_ok hread).trans ?_
    refine (Run.bind_apply_ok (isEnd_apply hm _ _)).trans ?_
    rw [hform']
    exact Run.bind_apply_ok (ih (h.form hform) hothers)

end Reading

/-! ### The main result -/

/-- Reading from an open port does not tell whether the port has just been put back. -/
theorem read_returning {rounds calls : Nat} {n : Native} {marker : Symbol} {v : Value}
    (hn : n.Does (.readPort k marker)) (hv : v.index? = some port)
    (h : (s.portTable k).Has port (some source)) (env : FrameId) :
    run rounds (calls + 1) (.apply (.native n) [v] env) s =
      run rounds (calls + 1) (.apply (.native n) [v] env)
        ((s.holding k port).returning k port source) := by
  have hclosed := Store.has_holding h
  have hopen := (Store.has_returning (Store.inRange_holding h.source?) hclosed source).source?
  have hglobal : ((s.holding k port).returning k port source).global env = s.global env := rfl
  rw [run_read hn.body hn.check, Run.Port.next_of_open hv h.source?, Run.Port.next_of_open hv hopen,
    Store.holding_returning hclosed.source?, hglobal]

/-- If all forms of the text of a port can be read without an operation on that port, the port gives
these forms one after the other, and then the marker.  To ask of each whether it is the marker gives
all of them, unless one of them is the marker itself.

This is so in every state, also in the middle of an evaluation: the forms have to be readable at the
depth at which the port is read. -/
theorem port_drained {s t : Store} {k port : Nat} {source rest : Source} {env : FrameId}
    {vs : List Value} {rounds calls : Nat} {n m : Native} {marker : Symbol} {v : Value}
    (hs : s.Sound) (hnumbered : (s.portTable k).Numbered) (henv : env < s.frames.size)
    (hopen : (s.portTable k).source? port = some source)
    (hn : n.Does (.readPort k marker)) (hm : m.Does (.isMarker marker)) (hv : v.index? = some port)
    (hall : Run.readAll (runStopping (.leaving k port) rounds calls) (s.global env) source s =
      (.ok (.ok vs, rest), t)) :
    let read := run rounds (calls + 1) (.apply (.native n) [v] env)
    let isEnd (form : Value) := run rounds (calls + 1) (.apply (.native m) [form] env)
    let drained := (t.holding k port).returning k port []
    Run.readAll (run rounds calls) (s.global env) source s = (.ok (.ok vs, rest), t) ∧
      (∀ count, ∃ u, read.times count s =
        (.ok ((vs ++ List.replicate count (Value.symbol marker)).take count), u)) ∧
      (∀ more, read.times (vs.length + (more + 1)) s =
        (.ok (vs ++ List.replicate (more + 1) (.symbol marker)), drained)) ∧
      (∀ form u, isEnd form u = (.ok (.ofBool (form.same (.symbol marker))), u) ∧
        (form.same (.symbol marker) = true ↔ form = .symbol marker)) ∧
      (Value.symbol marker ∉ vs →
        Run.drainUntil read isEnd (vs.length + 1) s = (.ok vs, drained)) := by
  intro read isEnd drained
  -- what is read from the text beside the port is read while the port is away from its table
  have hhas : (s.portTable k).Has port (some source) := ⟨hnumbered.given hopen, hopen⟩
  have hsame := readAll_of_leaving hall hhas
  have hheld := readAll_beside hall hhas.given
  have hstart : s.Held k port (s.holding k port) :=
    ⟨.of_frames rfl, Store.inRange_holding hopen, Store.has_holding hhas⟩
  have hdrains := drains_of_readAll hheld
  have hread : read s = read ((s.holding k port).returning k port source) :=
    read_returning hn hv hhas env
  -- with the forms all used up the port gives the marker
  have hmore : ∀ more, read.times (vs.length + (more + 1)) s =
      (.ok (vs ++ List.replicate (more + 1) (.symbol marker)), drained) := by
    intro more
    refine Eq.trans ?_ (times_of_drains hn hv hs henv hstart hdrains more)
    rw [← Nat.add_assoc, Run.times, Run.bind_apply, Run.bind_apply, hread]
  refine ⟨hsame, fun count => ?_, hmore, fun form u => ?_, ?_⟩
  · -- fewer readings are the first of so many
    have htimes := hmore count
    rw [← Nat.add_assoc, Nat.add_comm vs.length count, Nat.add_assoc] at htimes
    obtain ⟨u, hu⟩ := Run.times_take htimes
    refine ⟨u, hu.trans ?_⟩
    have htake : (vs ++ List.replicate (count + 1) (Value.symbol marker)).take count =
        (vs ++ List.replicate count (Value.symbol marker)).take count := by
      rw [List.take_append, List.take_append, List.take_replicate, List.take_replicate,
        Nat.min_eq_left (by omega), Nat.min_eq_left (by omega)]
    rw [htake]
  · exact ⟨isEnd_apply hm form u, Value.same_symbol⟩
  · intro hmarker
    refine Eq.trans ?_ (drainUntil_of_drains hn hv hs henv hm hstart hdrains hmarker)
    rw [Run.drainUntil, Run.bind_apply, Run.bind_apply, hread]

/-! ### Two files -/

/-- The store of a new engine with this nesting limit, and one file. -/
def Store.withFile (maxDepth : Nat) (content : String) : Store :=
  let files : FileTree := ⟨[(["f"], content.toUTF8.toList)], []⟩
  ((Operation.create ⟨.preserve, none, maxDepth⟩).run ⟨20, 20⟩ (.empty files)).2

/-- A program of the engine has opened a port on the file. -/
def Store.withPort (maxDepth : Nat) (content : String) : Store :=
  ((Operation.evaluate ⟨0, 0⟩ "(define p (sys:open-file-for-input \"f\"))").run ⟨20, 20⟩
    (.withFile maxDepth content)).2

/-- To go a nested step deeper changes neither frames nor ports. -/
theorem Store.Reachable.nested {files : FileTree} {s : Store} (h : s.Reachable files)
    (env : FrameId) (k : Nat) :
    (s.deepen env).Sound ∧ ((s.deepen env).portTable k).Numbered :=
  ⟨(h.holds fun _ => False).heap.sound.of_sameShape (Store.SameHeap.deepen s env).sameShape,
    h.numbered k⟩

/-- A file with a comment and two forms, read while a form is evaluated. -/
theorem port_drained_of_two :
    let text := "x ; the first\n7 "
    let s := (Store.withPort 8 text).deepen 0
    let x := (s.intern 0 "x").1
    let marker := (s.intern 0 markerName).1
    let read := run 20 20 (.apply (.native ⟨0, "sys:read", .exactly 1, .readPort 0 marker⟩)
      [.number (Float.ofNat 1)] 0)
    let isEnd (form : Value) :=
      run 20 20 (.apply (.native ⟨0, "sys:eof-p", .exactly 1, .isMarker marker⟩) [form] 0)
    (s.realm 0).depth = 1 ∧ (s.portTable 0).source? 1 = some text.toList ∧
      (Run.readAll (run 20 19) 0 text.toList s).1 =
        .ok (.ok [.symbol x, .number (Float.ofNat 7)], []) ∧
      (∃ u, read.times 4 s = (.ok [.symbol x, .number (Float.ofNat 7), .symbol marker,
        .symbol marker], u)) ∧
      ∃ u, Run.drainUntil read isEnd 3 s = (.ok [.symbol x, .number (Float.ofNat 7)], u) := by
  intro text s x marker read isEnd
  have hfile : Store.Reachable ⟨[(["f"], text.toUTF8.toList)], []⟩ (.withFile 8 text) :=
    .step .start ⟨20, 20⟩ (.create ⟨.preserve, none, 8⟩) trivial trivial
  have hsize : 0 < (Store.withFile 8 text).frames.size := by decide +kernel
  have hrest : Store.Reachable ⟨[(["f"], text.toUTF8.toList)], []⟩ (.withPort 8 text) :=
    .step hfile ⟨20, 20⟩ (.evaluate ⟨0, 0⟩ _) hsize trivial
  -- one nested step deeper
  obtain ⟨hs, hnumbered⟩ : s.Sound ∧ (s.portTable 0).Numbered := hrest.nested 0 0
  obtain ⟨hdepth, henv, hopen, hglobal, hall, hmarker⟩ : (s.realm 0).depth = 1 ∧
      0 < s.frames.size ∧ (s.portTable 0).source? 1 = some text.toList ∧ s.global 0 = 0 ∧
      (Run.readAll (runStopping (.leaving 0 1) 20 19) 0 text.toList s).1 =
        .ok (.ok [.symbol x, .number (Float.ofNat 7)], []) ∧
      Value.symbol marker ∉ [Value.symbol x, .number (Float.ofNat 7)] := by
    decide +kernel
  clear_value s
  have hread : Run.readAll (runStopping (.leaving 0 1) 20 19) (s.global 0) text.toList s =
      (.ok (.ok [.symbol x, .number (Float.ofNat 7)], []), _) :=
    Prod.ext (by rw [hglobal, hall]) rfl
  -- the number of the port, and the two primitives
  have hone : Value.index? (.number (Float.ofNat 1)) = some 1 :=
    Number.index?_ofNat (by decide) (by decide)
  obtain ⟨hsame, -, htimes, -, hdrained⟩ := port_drained hs hnumbered henv hopen
    (n := ⟨0, "sys:read", .exactly 1, .readPort 0 marker⟩) ⟨rfl, rfl⟩
    (m := ⟨0, "sys:eof-p", .exactly 1, .isMarker marker⟩) ⟨rfl, rfl⟩ hone hread
  rw [hglobal] at hsame
  exact ⟨hdepth, hopen, congrArg Prod.fst hsame, ⟨_, htimes 1⟩, ⟨_, hdrained hmarker⟩⟩

/-- The end of a file is found too early where a form of the file is the marker.  An expander that
reads from the port that is being read is refused, though all forms of the file can be read
otherwise.  And a file whose lists are nested as deeply as is allowed can be read at once, but not
by evaluating a form that reads from the port. -/
theorem port_not_drained :
    (let text := "sys:eof x"
      let s := Store.withPort 8 text
      let evaluate (content : String) := (Engine.evaluate ⟨20, 20⟩ ⟨0, 0⟩ content s).1
      (s.portTable 0).source? 1 = some text.toList ∧
        (Run.readAll (run 20 20) 0 text.toList s).1 = .ok (.ok
          [.symbol (s.intern 0 markerName).1, .symbol (s.intern 0 "x").1], []) ∧
        evaluate "(sys:eof-p (sys:read p))" = .ok .t ∧
        evaluate "(sys:read p) (sys:read p)" = .ok (.symbol (s.intern 0 "x").1)) ∧
    (let text := "(defmacro m () (sys:read 1)) (m) 7"
      let s := Store.withPort 8 text
      let evaluate (content : String) := (Engine.evaluate ⟨20, 20⟩ ⟨0, 0⟩ content s).1
      (s.portTable 0).source? 1 = some text.toList ∧
        (Run.readAll (run 20 20) 0 text.toList s).1 =
          .ok (.ok [.t, .t, .number (Float.ofNat 7)], []) ∧
        evaluate "(sys:read p) (sys:read p)" = .error (.fault (.notOpen "sys:read" 1))) ∧
    (let text := "((x))"
      let s := Store.withPort 2 text
      let evaluate (content : String) := (Engine.evaluate ⟨20, 20⟩ ⟨0, 0⟩ content s).1
      let inner : Value := .cons s.nextId (.symbol (s.intern 0 "x").1) .nil
      (s.portTable 0).source? 1 = some text.toList ∧
        (Run.readAll (run 20 20) 0 text.toList s).1 =
          .ok (.ok [.cons (s.nextId + 1) inner .nil], []) ∧
        evaluate "(sys:read p)" = .error (.fault (.stackExhausted 2))) := by
  decide +kernel

end PocketLisp
