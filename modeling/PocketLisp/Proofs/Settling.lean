/-
PocketLisp/Proofs/Settling.lean

What runs come to that only add to the store.

Such a run is cut short by the nesting limit, or because its allowance is used
up.  `Run.Ends` says how it ends if it is not, and `Run.Halts` that a large
enough allowance is not used up.  `Run.Settles` is both together, where the
second may be subject to a condition.
-/
import PocketLisp.Proofs.Growth
import PocketLisp.Proofs.RunLockstep

namespace PocketLisp

/-- The fault of one nested step too many. -/
theorem Store.short_of_depthFault? {s : Store} {env : FrameId} {f : Fault}
    (h : s.depthFault? env = some f) : (Stop.fault f).Short := by
  simp only [Store.depthFault?] at h
  split at h
  · cases h
    exact .stackExhausted _
  · cases h

namespace Run

variable {α β : Type}

/-! ### Large enough allowances -/

/-- From some number of calls and of rounds on, an activity comes to one end, which is not that the
allowance is used up.  The activity is given how calls are carried out, and how many rounds a loop
of its own may take. -/
structure ComesTo (m : Recur → Nat → Run α) (s : Store) (x : Except Stop α × Store) : Prop where
  finished : x.1 ≠ .error .unfinished
  enough : ∃ n, ∀ rounds calls times, n ≤ rounds → n ≤ calls → n ≤ times →
    m (run rounds calls) times s = x

/-- A large enough allowance is not used up. -/
def Halts (m : Recur → Nat → Run α) (s : Store) : Prop := ∃ x, ComesTo m s x

/-- Some allowance is not used up. -/
theorem Halts.exists_finished {m : Recur → Run α} {s : Store} (h : Halts (fun self _ => m self) s) :
    ∃ rounds calls, (m (run rounds calls) s).1 ≠ .error .unfinished := by
  obtain ⟨x, hfinished, n, henough⟩ := h
  refine ⟨n, n, ?_⟩
  rw [henough n n n (Nat.le_refl n) (Nat.le_refl n) (Nat.le_refl n)]
  exact hfinished

/-- An activity goes in lockstep with itself if its calls do, started in a store, unless the
allowance is used up. -/
def Steady (m : Recur → Run α) (s : Store) : Prop :=
  ∀ {self self' : Recur}, RecurLockstep (Pairing.unfinished s) self self' →
    Lockstep (Pairing.unfinished s) (Pairing.unfinished s).Stopped (m self) (m self')

namespace ComesTo

variable {m : Recur → Nat → Run α} {k : α → Recur → Nat → Run β} {s t : Store}

theorem const {m : Run α} {x : Except Stop α × Store} (h : m s = x)
    (hx : x.1 ≠ .error .unfinished) : ComesTo (fun _ _ => m) s x :=
  ⟨hx, 0, fun _ _ _ _ _ _ => h⟩

theorem ok {m : Run α} {a : α} (h : m s = (.ok a, t)) : ComesTo (fun _ _ => m) s (.ok a, t) :=
  const h nofun

theorem fault {m : Run α} {f : Fault} (h : m s = (.error (.fault f), t)) :
    ComesTo (fun _ _ => m) s (.error (.fault f), t) :=
  const h nofun

theorem bind {a : α} {y : Except Stop β × Store} (hm : ComesTo m s (.ok a, t))
    (hk : ComesTo (k a) t y) : ComesTo (fun self n => m self n >>= fun a => k a self n) s y := by
  obtain ⟨n, hm⟩ := hm.enough
  obtain ⟨n', hk'⟩ := hk.enough
  refine ⟨hk.finished, max n n', fun rounds calls times hrounds hcalls htimes => ?_⟩
  rw [bind_apply_ok (hm rounds calls times (by omega) (by omega) (by omega))]
  exact hk' rounds calls times (by omega) (by omega) (by omega)

theorem bind_error {e : Stop} (hm : ComesTo m s (.error e, t)) :
    ComesTo (fun self n => m self n >>= fun a => k a self n) s (.error e, t) := by
  obtain ⟨n, hm'⟩ := hm.enough
  refine ⟨fun h => hm.finished (congrArg _ (Except.error.inj h)), n, ?_⟩
  exact fun rounds calls times hrounds hcalls htimes =>
    bind_apply_error (hm' rounds calls times hrounds hcalls htimes)

/-- A loop that comes to an end with one round more. -/
theorem later {x : Except Stop α × Store} (h : ComesTo (fun self n => m self (n + 1)) s x) :
    ComesTo m s x := by
  obtain ⟨n, hm⟩ := h.enough
  refine ⟨h.finished, n + 1, fun rounds calls times hrounds hcalls htimes => ?_⟩
  obtain ⟨times, rfl⟩ := Nat.exists_eq_add_one.mpr (Nat.lt_of_lt_of_le n.succ_pos htimes)
  exact hm rounds calls times (by omega) (by omega) (by omega)

/-- What a call does is done with one call less. -/
theorem call {c : Call α} {x : Except Stop α × Store}
    (h : ComesTo (fun self n => c.nested (perform self n c)) s x) :
    ComesTo (fun self _ => self c) s x := by
  obtain ⟨n, hm⟩ := h.enough
  refine ⟨h.finished, n + 1, fun rounds calls times hrounds hcalls htimes => ?_⟩
  obtain ⟨calls, rfl⟩ := Nat.exists_eq_add_one.mpr (Nat.lt_of_lt_of_le n.succ_pos hcalls)
  exact hm rounds calls rounds (by omega) (by omega) (by omega)

/-- What finishes with some allowance does the same with every larger one. -/
theorem of_finished {m : Recur → Run α} {rounds calls : Nat} (hm : Steady m s)
    (h : (m (run rounds calls) s).1 ≠ .error .unfinished) :
    ComesTo (fun self _ => m self) s (m (run rounds calls) s) := by
  refine ⟨h, max rounds calls, fun rounds' calls' _ hrounds hcalls _ => ?_⟩
  have hmore : RecurLockstep (Pairing.unfinished s) (run rounds calls) (run rounds' calls') :=
    run_lockstep_of_le (by omega) (by omega)
  rcases (hm hmore).eq_of_store with hcut | heq
  · obtain ⟨stop, hstop, rfl⟩ := hcut.eq_error
    exact absurd hstop h
  · exact heq

/-- A nested step is given back. -/
theorem nested {c : Call α} {env : FrameId} (hc : c.nestsIn? = some env)
    (hroom : s.depthFault? env = none) {x : Except Stop α × Store}
    (h : ComesTo m (s.deepen env) x) :
    ComesTo (fun self n => c.nested (m self n)) s (x.1, x.2.riseIn (s.realmOf env)) := by
  obtain ⟨n, hm⟩ := h.enough
  refine ⟨h.finished, n, fun rounds calls times hrounds hcalls htimes => ?_⟩
  simp only [Call.nested, hc, hroom, hm rounds calls times hrounds hcalls htimes]

end ComesTo

namespace Halts

variable {m : Recur → Nat → Run α} {s : Store}

/-- What does the same as an activity that halts. -/
theorem congr {m' : Recur → Nat → Run α} {t : Store} (h : Halts m' t)
    (heq : ∀ self n, m self n s = m' self n t) : Halts m s := by
  obtain ⟨x, hfinished, n, henough⟩ := h
  refine ⟨x, hfinished, n, fun rounds calls times hrounds hcalls htimes => ?_⟩
  rw [heq]
  exact henough rounds calls times hrounds hcalls htimes

/-- What goes on from where an activity comes to. -/
theorem after {k : α → Recur → Nat → Run β} {x : Except Stop α × Store} (hm : ComesTo m s x)
    (hk : ∀ a t, x = (.ok a, t) → Halts (k a) t) :
    Halts (fun self n => m self n >>= fun a => k a self n) s := by
  obtain ⟨e | a, t⟩ := x
  · exact ⟨_, hm.bind_error⟩
  · obtain ⟨y, hy⟩ := hk a t rfl
    exact ⟨y, hm.bind hy⟩

theorem later (h : Halts (fun self n => m self (n + 1)) s) : Halts m s := by
  obtain ⟨x, hx⟩ := h
  exact ⟨x, hx.later⟩

/-- A call halts if what it does halts, a nested step deeper if it is counted as one. -/
theorem call {c : Call α} (hplain : c.nestsIn? = none → Halts (fun self n => perform self n c) s)
    (hdeep : ∀ env, c.nestsIn? = some env →
      Halts (fun self n => perform self n c) (s.deepen env)) :
    Halts (fun self _ => self c) s := by
  rcases hc : c.nestsIn? with - | env
  · obtain ⟨x, hx⟩ := (hplain hc).congr (m := fun self n => c.nested (perform self n c)) (s := s)
      fun self n => by simp only [Call.nested, hc]
    exact ⟨x, hx.call⟩
  · rcases hfault : s.depthFault? env with - | f
    · obtain ⟨x, hx⟩ := hdeep env hc
      exact ⟨_, .call (hx.nested hc hfault)⟩
    · refine ⟨(c.refused f, s), .call ⟨?_, 0, fun rounds calls times _ _ _ => ?_⟩⟩
      · cases c <;> simp [Call.refused]
      · simp only [Call.nested, hc, hfault]

end Halts

/-! ### Runs that only add to the store -/

/-- What a run started in `t` has come to: it has only added to a store that had grown out of `s`,
has interned nothing, and ends in one of these ways, unless it was cut short; `none` is a fault. -/
inductive Outcome (s : Store) (g : FrameId) (P : Option α → Prop) (t : Store) :
    Except Stop α × Store → Prop
  | ok {a : α} {u : Store} : P (some a) → s.Grown u → Store.SameNames g t u →
      Outcome s g P t (.ok a, u)
  | fault {stop : Stop} {u : Store} : P none → Outcome s g P t (.error stop, u)
  | short {stop : Stop} {u : Store} : stop.Short → Outcome s g P t (.error stop, u)

/-- How a run ends in all stores that have grown out of one. -/
def Ends (s : Store) (g : FrameId) (P : Option α → Prop) (m : Run α) : Prop :=
  ∀ t, s.Grown t → Outcome s g P t (m t)

namespace Ends

variable {s : Store} {g : FrameId} {P : Option α → Prop} {Q : Option β → Prop}

theorem pure {a : α} (h : P (some a)) : Ends s g P (Pure.pure a) :=
  fun t ht => .ok h ht (.refl g t)

theorem fault {f : Fault} (h : P none) : Ends s g P (Run.fault f) := fun _ _ => .fault h

theorem unfinished : Ends s g P Run.unfinished := fun _ _ => .short .unfinished

theorem ofExcept {x : Except Fault α} (h : P x.toOption) : Ends s g P (Run.ofExcept x) := by
  cases x with
  | error f => exact fault h
  | ok a => exact pure h

/-- A list of new cells, told by its content. -/
theorem listOnto {R : Option Value → Prop} {items : List Value} {tail : Value}
    (h : ∀ v : Value, v.bare = items.foldr (fun a d => .cons 0 a.bare d) tail.bare → R (some v)) :
    Ends s g R (Run.ofFresh (Fresh.listOnto items tail)) :=
  fun t ht => .ok (h _ (Value.bare_chain_reverse t.nextId items tail)) (ht.nextId _) ⟨rfl, rfl, rfl⟩

theorem read {f : Store → α} (h : ∀ t, s.Grown t → P (some (f t))) : Ends s g P (Run.read f) :=
  fun t ht => .ok (h t ht) ht (.refl g t)

theorem bind {m : Run α} {k : α → Run β} (hm : Ends s g P m)
    (hk : ∀ a, P (some a) → Ends s g Q (k a)) (hnone : P none → Q none) :
    Ends s g Q (m >>= k) := by
  intro t ht
  have hfirst := hm t ht
  rw [Run.bind_apply]
  generalize m t = x at hfirst
  -- the second half runs in a store as good as the first
  cases hfirst with
  | ok ha hu hnames =>
    have hrest := hk _ ha _ hu
    dsimp only
    generalize k _ _ = y at hrest
    cases hrest with
    | ok hb hu' hnames' => exact .ok hb hu' (hnames.trans hnames')
    | fault hb => exact .fault hb
    | short hstop => exact .short hstop
  | fault ha => exact .fault (hnone ha)
  | short hstop => exact .short hstop

/-- What a run results in can be told less exactly. -/
theorem mono {R : Option α → Prop} {m : Run α} (hm : Ends s g P m) (h : ∀ r, P r → R r) :
    Ends s g R m := by
  intro t ht
  have hrun := hm t ht
  generalize m t = x at hrun ⊢
  cases hrun with
  | ok ha hu hnames => exact .ok (h _ ha) hu hnames
  | fault ha => exact .fault (h _ ha)
  | short hstop => exact .short hstop

/-- A nested step: what is added to the nesting is taken away again. -/
theorem nested {c : Call α} (hc : ∀ f, c.refused f = .error (.fault f)) {m : Run α}
    (h : Ends s g P m) : Ends s g P (c.nested m) := by
  intro t ht
  -- a step that is not counted, one that is taken, and one refused for the depth
  rcases hin : c.nestsIn? with - | frame
  · simp only [Call.nested, hin]
    exact h t ht
  · rcases hfault : t.depthFault? frame with - | f
    · have hrun := h (t.deepen frame) (ht.deepen frame)
      have hdeep := (Store.SameNames.refl g t).deepen frame
      simp only [Call.nested, hin, hfault]
      generalize m (t.deepen frame) = x at hrun ⊢
      cases hrun with
      | ok ha hu hnames => exact .ok ha (hu.riseIn _) ((hdeep.trans hnames).riseIn _)
      | fault ha => exact .fault ha
      | short hstop => exact .short hstop
    · simp only [Call.nested, hin, hfault, hc]
      exact .short (Store.short_of_depthFault? hfault)

end Ends

/-! ### Runs that settle -/

section Settles

variable {α β : Type} {s t : Store} {g : FrameId} {P : Option α → Prop} {Q : Option β → Prop}
  {m : Recur → Nat → Run α} {k : α → Recur → Nat → Run β}

theorem ComesTo.outcome {x : Except Stop α × Store} (hx : ComesTo m t x)
    (hm : ∀ rounds calls times, Ends s g P (m (run rounds calls) times)) (ht : s.Grown t) :
    Outcome s g P t x := by
  obtain ⟨n, henough⟩ := hx.enough
  rw [← henough n n n (Nat.le_refl n) (Nat.le_refl n) (Nat.le_refl n)]
  exact hm n n n t ht

theorem Halts.bind (hm : Halts m t)
    (hends : ∀ rounds calls times, Ends s g P (m (run rounds calls) times)) (ht : s.Grown t)
    (hk : ∀ a u, P (some a) → s.Grown u → Halts (k a) u) :
    Halts (fun self n => m self n >>= fun a => k a self n) t := by
  obtain ⟨x, hx⟩ := hm
  refine .after hx ?_
  rintro a u rfl
  cases hx.outcome hends ht with
  | ok ha hu => exact hk a u ha hu

/-- In all stores that have grown out of one, an activity ends in one of these ways, and under a
condition a large enough allowance is not used up. -/
structure Settles (s : Store) (g : FrameId) (condition : Prop) (P : Option α → Prop)
    (m : Recur → Nat → Run α) : Prop where
  ends : ∀ rounds calls times, Ends s g P (m (run rounds calls) times)
  halts : condition → ∀ t, s.Grown t → Halts m t

namespace Settles

variable {A B : Prop}

/-- What neither makes calls nor has a loop. -/
theorem const {m : Run α} (h : Ends s g P m) (hm : ∀ t, (m t).1 ≠ .error .unfinished) :
    Settles s g B P fun _ _ => m :=
  ⟨fun _ _ _ => h, fun _ t _ => ⟨m t, .const rfl (hm t)⟩⟩

theorem pure {a : α} (h : P (some a)) : Settles s g B P fun _ _ => Pure.pure a :=
  const (.pure h) fun _ => nofun

theorem ofExcept {x : Except Fault α} (h : P x.toOption) :
    Settles s g B P fun _ _ => Run.ofExcept x := by
  refine const (.ofExcept h) fun t => ?_
  cases x <;> exact nofun

theorem read {f : Store → α} (h : ∀ t, s.Grown t → P (some (f t))) :
    Settles s g B P fun _ _ => Run.read f :=
  const (.read h) fun _ => nofun

/-- A list of new cells, told by its content. -/
theorem list {R : Option Value → Prop} {items : List Value}
    (h : ∀ v : Value, v.bare = Value.bareList items → R (some v)) :
    Settles s g B R fun _ _ => Run.ofFresh (Fresh.list items) :=
  const (.listOnto h) fun _ => nofun

theorem bind (hm : Settles s g A P m) (hB : B → A) (hk : ∀ a, P (some a) → Settles s g B Q (k a))
    (hnone : P none → Q none) : Settles s g B Q fun self n => m self n >>= fun a => k a self n where
  ends := fun rounds calls times =>
    (hm.ends rounds calls times).bind (fun a ha => (hk a ha).ends rounds calls times) hnone
  halts := fun h t ht =>
    (hm.halts (hB h) t ht).bind hm.ends ht fun a u ha hu => (hk a ha).halts h u hu

theorem mono {R : Option α → Prop} (hm : Settles s g B P m) (h : ∀ r, P r → R r) :
    Settles s g B R m :=
  ⟨fun rounds calls times => (hm.ends rounds calls times).mono h, hm.halts⟩

/-- What fails at once, in every store. -/
theorem refused (h : ∀ t, s.Grown t → ∃ f, ∀ self n, m self n t = (.error (.fault f), t))
    (hnone : P none) : Settles s g B P m where
  ends := fun rounds calls times t ht => by
    obtain ⟨f, hf⟩ := h t ht
    rw [hf]
    exact .fault hnone
  halts := fun _ t ht => by
    obtain ⟨f, hf⟩ := h t ht
    exact ⟨(.error (.fault f), t), nofun, 0, fun _ _ _ _ _ _ => hf _ _⟩

/-- What goes on, in every store, with an activity that settles in a store that has grown. -/
theorem entered (h : ∀ t, s.Grown t → ∃ u m', s.Grown u ∧ Store.SameNames g t u ∧
      Settles u g B P m' ∧ ∀ self n, m self n t = m' self n u) : Settles s g B P m where
  ends := fun rounds calls times t ht => by
    obtain ⟨u, m', hu, hnames, hm', heq⟩ := h t ht
    have hrun := hm'.ends rounds calls times u (.refl u)
    rw [heq]
    generalize m' (run rounds calls) times u = x at hrun ⊢
    cases hrun with
    | ok ha hgrown hnames' => exact .ok ha (hu.trans hgrown) (hnames.trans hnames')
    | fault ha => exact .fault ha
    | short hstop => exact .short hstop
  halts := fun hB t ht => by
    obtain ⟨u, m', -, -, hm', heq⟩ := h t ht
    exact (hm'.halts hB u (.refl u)).congr heq

/-- A call settles as what it does settles, counted as a nested step or not. -/
theorem call {c : Call α} (hc : ∀ f, c.refused f = .error (.fault f))
    (h : Settles s g B P fun self n => perform self n c) :
    Settles s g B P fun self _ => self c where
  ends := fun rounds calls times => by
    cases calls with
    | zero => exact .unfinished
    | succ calls => exact .nested hc (h.ends rounds calls rounds)
  halts := fun hB t ht =>
    .call (fun _ => h.halts hB t ht) fun env _ => h.halts hB (t.deepen env) (ht.deepen env)

end Settles

end Settles

end Run

end PocketLisp
