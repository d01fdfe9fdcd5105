/-
PocketLisp/Proofs/Lockstep.lean

Two runs side by side.

The runs start in stores that are alike, on levels that are given for each.
They go in lockstep if they end alike and on the same levels as before,
whatever the first of them does, unless it is cut off: by ends that a
`Pairing` names, after which nothing is said about the second run.

A fault that cuts a run off must not be swallowed.  Programs of the host can
swallow faults, so either no fault cuts, or the programs have to be quiet.

This module has the rules for the combinators that runs and readings are made
of.  What every activity of the interpreter does is compared in
`PocketLisp.Proofs.Activity`.
-/
import PocketLisp.Proofs.Levels
import PocketLisp.Proofs.Steps

namespace PocketLisp

/-- How two runs are compared. -/
structure Pairing where
  /-- the ends of the first run after which the second is free -/
  cut : Stop → Prop
  /-- programs of the host have to be quiet -/
  quiet : Prop
  faults : ∀ {f}, cut (.fault f) → quiet
  /-- the levels of the first run -/
  low : Nat → Level
  /-- the levels of the second run -/
  high : Nat → Level

namespace Pairing

/-- Two stores between which the runs go on. -/
structure Ties (P : Pairing) (s t : Store) : Prop where
  alike : s.Alike t
  low : s.level = P.low
  high : t.level = P.high
  quiet : P.quiet → s.Quiet

/-- One nested step deeper in both runs. -/
def raised (P : Pairing) (realm : Nat) : Pairing :=
  { P with low := raise realm P.low, high := raise realm P.high }

variable {α : Type}

/-- A run is cut off. -/
def Stopped (P : Pairing) : Except Stop α → Prop
  | .error e => P.cut e
  | .ok _ => False

/-- A reading is cut off; faults of readings are results of runs. -/
def StoppedReading (P : Pairing) : Except Stop (Except Fault α × Source) → Prop
  | .error e => P.cut e
  | .ok (.error f, _) => P.cut (.fault f)
  | .ok (.ok _, _) => False

/-- A run is cut off, but not by a fault. -/
def Unfinished (P : Pairing) : Except Stop α → Prop
  | .error e => e = .unfinished ∧ P.cut e
  | .ok _ => False

theorem Stopped.eq_error {P : Pairing} {r : Except Stop α} (h : P.Stopped r) :
    ∃ e, r = .error e ∧ P.cut e := by
  cases r with
  | ok a => exact h.elim
  | error e => exact ⟨e, rfl, h⟩

theorem Unfinished.eq_error {P : Pairing} {r : Except Stop α} (h : P.Unfinished r) :
    r = .error .unfinished ∧ P.cut .unfinished := by
  cases r with
  | ok a => exact h.elim
  | error e =>
    obtain ⟨rfl, hcut⟩ := h
    exact ⟨rfl, hcut⟩

theorem Unfinished.stopped {P : Pairing} {r : Except Stop α} (h : P.Unfinished r) :
    P.Stopped r := by
  obtain ⟨rfl, hcut⟩ := h.eq_error
  exact hcut

end Pairing

/-- The second run does what the first does, unless that ends as `free` says. -/
def Lockstep {α : Type} (P : Pairing) (free : Except Stop α → Prop) (m m' : Run α) : Prop :=
  ∀ s t, P.Ties s t → free (m s).1 ∨ ((m' t).1 = (m s).1 ∧ P.Ties (m s).2 (m' t).2)

/-- The second reading does what the first does, unless that is cut off. -/
def ReadLockstep {α : Type} (P : Pairing) (m m' : Reading α) : Prop :=
  ∀ source, Lockstep P P.StoppedReading (m source) (m' source)

variable {α β : Type} {P : Pairing} {free : Except Stop α → Prop} {m m' : Run α}

namespace Lockstep

theorem mono {free' : Except Stop α → Prop} (h : Lockstep P free m m')
    (hf : ∀ {r}, free r → free' r) : Lockstep P free' m m' := by
  intro s t hst
  rcases h s t hst with hc | hr
  · exact .inl (hf hc)
  · exact .inr hr

theorem stopped (h : Lockstep P P.Unfinished m m') : Lockstep P P.Stopped m m' :=
  h.mono Pairing.Unfinished.stopped

/-! ### Steps of a run -/

protected theorem pure (a : α) : Lockstep P free (pure a) (pure a) :=
  fun _ _ hst => .inr ⟨rfl, hst⟩

protected theorem throw (e : Stop) : Lockstep P free (throw e) (throw e) :=
  fun _ _ hst => .inr ⟨rfl, hst⟩

/-- The rule for operations on the store; only those that add programs of the host have to say
something about these. -/
theorem update_of {f : Store → α × Store} (hf : Store.Blind f)
    (hquiet : P.quiet → ∀ {s}, s.Quiet → (f s).2.Quiet) :
    Lockstep P free (Run.update f) (Run.update f) := by
  intro s t hst
  refine .inr ⟨?_, ⟨hf.alike hst.alike, ?_, ?_, fun hq => hquiet hq (hst.quiet hq)⟩⟩
  · show Except.ok (f t).1 = Except.ok (f s).1
    rw [hf.result hst.alike]
  · show (f s).2.level = P.low
    rw [hf.level, hst.low]
  · show (f t).2.level = P.high
    rw [hf.level, hst.high]

protected theorem update {f : Store → α × Store} (hf : Store.Harmless f) :
    Lockstep P free (Run.update f) (Run.update f) :=
  update_of hf.toBlind fun _ => hf.quiet

protected theorem read {f : Store → α} (hf : Store.Unseen f) :
    Lockstep P free (Run.read f) (Run.read f) :=
  Lockstep.update (f := fun s => (f s, s)) hf.harmless

protected theorem change {free : Except Stop Unit → Prop} {f : Store → Store}
    (hf : Store.Harmless fun s => ((), f s)) : Lockstep P free (Run.change f) (Run.change f) :=
  Lockstep.update (f := fun s => ((), f s)) hf

protected theorem ofExcept (x : Except Fault α) :
    Lockstep P free (Run.ofExcept x) (Run.ofExcept x) := by
  cases x with
  | ok a => exact Lockstep.pure a
  | error f => exact Lockstep.throw _

protected theorem ofFresh (body : Fresh α) :
    Lockstep P free (Run.ofFresh body) (Run.ofFresh body) := by
  intro s t hst
  have hu : Lockstep P (fun _ => False) _ _ :=
    Lockstep.update (Store.harmless_nextId fun next => body next)
  rcases hu s t hst with hn | ⟨hr, hties⟩
  · exact hn.elim
  · have hx : (body t.nextId).1 = (body s.nextId).1 := Except.ok.inj hr
    have ho : Lockstep P free _ _ := Lockstep.ofExcept (body s.nextId).1
    rw [Run.ofFresh_apply, Run.ofFresh_apply, hx]
    exact ho _ _ hties

/-! ### Sequences -/

/-- The rule for sequences: what cuts off the first part cuts off the whole. -/
theorem bind_of {free' : Except Stop β → Prop} {k k' : α → Run β} (h : Lockstep P free m m')
    (hk : ∀ a, Lockstep P free' (k a) (k' a)) (hok : ∀ a, ¬ free (.ok a))
    (herror : ∀ e, free (.error e) → free' (.error e)) :
    Lockstep P free' (m >>= k) (m' >>= k') := by
  intro s t hst
  have hm := h s t hst
  rw [Run.bind_apply, Run.bind_apply]
  rcases hms : m s with ⟨r, s₁⟩
  rcases hmt : m' t with ⟨r', t₁⟩
  rw [hms, hmt] at hm
  -- the second half runs only where the first gives a value, which is never a cut
  cases r with
  | ok a =>
    rcases hm with hc | ⟨rfl, hties⟩
    · exact absurd hc (hok a)
    · exact hk a s₁ t₁ hties
  | error e =>
    rcases hm with hc | ⟨rfl, hties⟩
    · exact .inl (herror e hc)
    · exact .inr ⟨rfl, hties⟩

protected theorem bind {k k' : α → Run β} (h : Lockstep P P.Stopped m m')
    (hk : ∀ a, Lockstep P P.Stopped (k a) (k' a)) : Lockstep P P.Stopped (m >>= k) (m' >>= k') :=
  h.bind_of hk (fun _ => id) fun _ => id

theorem bind_unfinished {k k' : α → Run β} (h : Lockstep P P.Unfinished m m')
    (hk : ∀ a, Lockstep P P.Unfinished (k a) (k' a)) :
    Lockstep P P.Unfinished (m >>= k) (m' >>= k') :=
  h.bind_of hk (fun _ => id) fun _ => id

/-- What is done with the result of an operation may rest on what the store holds. -/
theorem update_bind {free : Except Stop β → Prop} {f : Store → α × Store}
    (hf : Store.Harmless f) {k k' : α → Run β}
    (hk : ∀ s, (P.quiet → s.Quiet) → Lockstep P free (k (f s).1) (k' (f s).1)) :
    Lockstep P free (Run.update f >>= k) (Run.update f >>= k') := by
  intro s t hst
  have hu : Lockstep P (fun _ => False) _ _ := Lockstep.update hf
  rcases hu s t hst with hn | ⟨hr, hties⟩
  · exact hn.elim
  · have hx : (f t).1 = (f s).1 := Except.ok.inj hr
    rw [Run.bind_apply, Run.bind_apply, Run.update_apply, Run.update_apply, hx]
    exact hk s hst.quiet _ _ hties

/-- What is done with the result or the fault of a run. -/
protected theorem observe (h : Lockstep P P.Unfinished m m') :
    Lockstep P P.Unfinished (Run.observe m) (Run.observe m') := by
  intro s t hst
  have hm := h s t hst
  rw [Run.observe_apply, Run.observe_apply]
  rcases hms : m s with ⟨r, s₁⟩
  rcases hmt : m' t with ⟨r', t₁⟩
  rw [hms, hmt] at hm
  -- a cut run is unfinished, and that is not observed as an outcome
  rcases hm with hc | ⟨rfl, hties⟩
  · cases r with
    | ok a => exact hc.elim
    | error e =>
      obtain ⟨rfl, hcut⟩ := hc
      exact .inl ⟨rfl, hcut⟩
  · match r' with
    | .ok a => exact .inr ⟨rfl, hties⟩
    | .error (.fault f) => exact .inr ⟨rfl, hties⟩
    | .error .unfinished => exact .inr ⟨rfl, hties⟩

/-- If host programs may be anything, no fault cuts a run off. -/
theorem unfinished (h : Lockstep P P.Stopped m m') (hq : ¬ P.quiet) :
    Lockstep P P.Unfinished m m' := by
  refine h.mono fun {r} hr => ?_
  match r, hr with
  | .error .unfinished, hr => exact ⟨rfl, hr⟩
  | .error (.fault f), hr => exact (hq (P.faults hr)).elim

/-! ### Lists of steps -/

section Lists

variable {f f' : α → Run β}

protected theorem mapM (h : ∀ a, Lockstep P P.Stopped (f a) (f' a)) (xs : List α) :
    Lockstep P P.Stopped (xs.mapM f) (xs.mapM f') := by
  induction xs with
  | nil => exact Lockstep.pure _
  | cons x xs ih =>
    rw [List.mapM_cons, List.mapM_cons]
    refine (h x).bind fun y => ?_
    exact ih.bind fun ys => Lockstep.pure _

protected theorem foldlM {g g' : β → α → Run β} (h : ∀ b a, Lockstep P P.Stopped (g b a) (g' b a))
    (b : β) (xs : List α) : Lockstep P P.Stopped (xs.foldlM g b) (xs.foldlM g' b) := by
  induction xs generalizing b with
  | nil => exact Lockstep.pure _
  | cons x xs ih => exact (h b x).bind fun b' => ih b'

theorem filterAuxM {g g' : α → Run Bool} (h : ∀ a, Lockstep P P.Stopped (g a) (g' a))
    (xs acc : List α) :
    Lockstep P P.Stopped (xs.filterAuxM g acc) (xs.filterAuxM g' acc) := by
  induction xs generalizing acc with
  | nil => exact Lockstep.pure _
  | cons x xs ih => exact (h x).bind fun b => ih _

protected theorem filterM {g g' : α → Run Bool} (h : ∀ a, Lockstep P P.Stopped (g a) (g' a))
    (xs : List α) : Lockstep P P.Stopped (xs.filterM g) (xs.filterM g') :=
  (filterAuxM h xs []).bind fun _ => Lockstep.pure _

end Lists

end Lockstep

/-! ### Readings -/

namespace ReadLockstep

variable {r r' : Reading α}

protected theorem pure (a : α) : ReadLockstep P (pure a) (pure a) :=
  fun _ => Lockstep.pure _

protected theorem throw (f : Fault) : ReadLockstep P (throw f : Reading α) (throw f) :=
  fun _ => Lockstep.pure _

protected theorem token : ReadLockstep P Reading.token Reading.token :=
  fun _ => Lockstep.pure _

protected theorem get : ReadLockstep P (MonadState.get : Reading Source) MonadState.get :=
  fun _ => Lockstep.pure _

protected theorem bind {k k' : α → Reading β} (h : ReadLockstep P r r')
    (hk : ∀ a, ReadLockstep P (k a) (k' a)) : ReadLockstep P (r >>= k) (r' >>= k') := by
  intro source s t hst
  have hr := h source s t hst
  rw [Reading.bind_apply, Reading.bind_apply, Run.bind_apply, Run.bind_apply]
  rcases hrs : r source s with ⟨x, s₁⟩
  rcases hrt : r' source t with ⟨x', t₁⟩
  rw [hrs, hrt] at hr
  -- a cut may be a fault of the reading or a stop of the run
  match x with
  | .ok (.ok a, rest) =>
    rcases hr with hc | ⟨rfl, hties⟩
    · exact hc.elim
    · exact hk a rest s₁ t₁ hties
  | .ok (.error f, rest) =>
    rcases hr with hc | ⟨rfl, hties⟩
    · exact .inl hc
    · exact .inr ⟨rfl, hties⟩
  | .error e =>
    rcases hr with hc | ⟨rfl, hties⟩
    · exact .inl hc
    · exact .inr ⟨rfl, hties⟩

protected theorem ofRun (h : Lockstep P P.Stopped m m') :
    ReadLockstep P (Reading.ofRun m) (Reading.ofRun m') := by
  intro source s t hst
  have hm := h s t hst
  rw [Reading.ofRun_apply, Reading.ofRun_apply]
  rcases hms : m s with ⟨x, s₁⟩
  rcases hmt : m' t with ⟨x', t₁⟩
  rw [hms, hmt] at hm
  match x with
  | .ok a =>
    rcases hm with hc | ⟨rfl, hties⟩
    · exact hc.elim
    · exact .inr ⟨rfl, hties⟩
  | .error (.fault f) =>
    rcases hm with hc | ⟨rfl, hties⟩
    · exact .inl hc
    · exact .inr ⟨rfl, hties⟩
  | .error .unfinished =>
    rcases hm with hc | ⟨rfl, hties⟩
    · exact .inl hc
    · exact .inr ⟨rfl, hties⟩

/-- A run that goes on with what a reading ends with, and ends with the fault if that is one. -/
theorem bind_run {r r' : Reading α} {k k' : Except Fault α × Source → Run β}
    (h : ReadLockstep P r r') (hk : ∀ p, Lockstep P P.Stopped (k p) (k' p))
    (hfault : ∀ f rest s, (k (.error f, rest) s).1 = .error (.fault f)) (source : Source) :
    Lockstep P P.Stopped (r source >>= k) (r' source >>= k') := by
  intro s t hst
  have hr := h source s t hst
  rw [Run.bind_apply, Run.bind_apply]
  rcases hrs : r source s with ⟨x, s₁⟩
  rcases hrt : r' source t with ⟨x', t₁⟩
  rw [hrs, hrt] at hr
  match x with
  | .ok (.ok a, rest) =>
    rcases hr with hc | ⟨rfl, hties⟩
    · exact hc.elim
    · exact hk _ s₁ t₁ hties
  | .ok (.error f, rest) =>
    rcases hr with hc | ⟨rfl, hties⟩
    · left
      show P.Stopped (k (.error f, rest) s₁).1
      rw [hfault]
      exact hc
    · exact hk _ s₁ t₁ hties
  | .error e =>
    rcases hr with hc | ⟨rfl, hties⟩
    · exact .inl hc
    · exact .inr ⟨rfl, hties⟩

end ReadLockstep

end PocketLisp
