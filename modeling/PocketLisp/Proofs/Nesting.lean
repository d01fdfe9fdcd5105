/-
PocketLisp/Proofs/Nesting.lean

Nested steps are given back.

Whatever is asked of an engine, and however it ends, every realm is as deep
afterwards as it was before.  In between it is never less deep, and never
deeper than its limit: an interpreter that looks at the store at the start
and at the end of every call, and once more inside of every nested step, and
that ends unfinished where it finds a depth out of these bounds, does the same
as one that does not look.  Between these points nothing but operations of the
store happens, and these leave the depth alone (`PocketLisp.Proofs.Levels`).

Main result: `nesting_balanced`.
-/
import PocketLisp.Engine
import PocketLisp.Proofs.RunLockstep

namespace PocketLisp

/-! ### Requests -/

/-- What may be asked of an engine, each with the type of the answer. -/
inductive Request : Type → Type where
  /-- evaluates a text -/
  | evaluate (e : Engine) (content : String) : Request Value
  /-- evaluates lines as the body of one `progn` -/
  | evaluateLines (e : Engine) (lines : List String) : Request Value
  /-- reads a form and keeps what is left of the text -/
  | read (mode : Mode) (global : FrameId) (source : Source) :
      Request (Except Fault Value × Source)
  /-- expands the macro calls in a form -/
  | expand (form : Value) (env : FrameId) : Request Value
  /-- evaluates a form -/
  | eval (form : Value) (env : FrameId) : Request Value
  /-- calls a function -/
  | apply (f : Function) (args : List Value) (env : FrameId) : Request Value

/-- How a request is answered, given a way to carry out calls. -/
def Request.answer {α : Type} (self : Recur) : Request α → Run α
  | .evaluate e content => Run.evaluate self e.global content.toList
  | .evaluateLines e lines => Run.evaluate self e.global (Engine.prognText lines).toList
  | .read mode global source => self.form mode global source
  | .expand form env => self (.expand form env)
  | .eval form env => self (.eval form env)
  | .apply f args env => self (.apply f args env)

theorem answer_evaluate (a : Allowance) (e : Engine) (content : String) :
    (Request.evaluate e content).answer a.run = e.evaluate a content := rfl

theorem answer_evaluateLines (a : Allowance) (e : Engine) (lines : List String) :
    (Request.evaluateLines e lines).answer a.run = e.evaluateLines a lines := rfl

/-! ### An interpreter that looks at the store -/

/-- A run that ends unfinished unless the store passes a check at its start and at its end. -/
def watched {α : Type} (check : Store → Prop) [DecidablePred check] (body : Run α) : Run α :=
  fun s =>
    if check s then
      let (r, t) := body s
      if check t then (r, t) else (.error .unfinished, t)
    else (.error .unfinished, s)

/-- Carries out a call as `run` does, and looks at the store around every call and inside of every
nested step. -/
def watchedRun (check : Store → Prop) [DecidablePred check] (rounds : Nat) : (calls : Nat) → Recur
  | 0, _, _ => Run.unfinished
  | calls + 1, _, c =>
    watched check (c.nested (watched check (perform (watchedRun check rounds calls) rounds c)))

/-- Carries out a call within an allowance, and looks at the store. -/
def Allowance.watchedRun (a : Allowance) (check : Store → Prop) [DecidablePred check] : Recur :=
  fun _ c => PocketLisp.watchedRun check a.rounds a.calls c

/-- A realm is at least as deep as a first level, and not deeper than this allows. -/
def Level.Bounds (l l' : Level) : Prop := l.depth ≤ l'.depth ∧ l'.depth ≤ l.limit

instance (l l' : Level) : Decidable (l.Bounds l') := instDecidableAnd

/-! ### Nothing is noticed -/

variable {α : Type} {P : Pairing} {check : Store → Prop} [DecidablePred check]

theorem watched_of {m : Run α} {s : Store} (h : check s) (h' : check (m s).2) :
    watched check m s = m s := by
  rcases hm : m s with ⟨r, t⟩
  rw [hm] at h'
  simp only [watched, h, hm, h', if_true]

/-- Looking at stores that pass the check changes nothing. -/
theorem Lockstep.watched {free : Except Stop α → Prop} {m m' : Run α} (h : Lockstep P free m m')
    (hcheck : ∀ t : Store, t.level = P.high → check t) :
    Lockstep P free m (watched check m') := by
  intro s t hst
  rcases h s t hst with hfree | ⟨hr, hties⟩
  · exact .inl hfree
  · rw [watched_of (hcheck t hst.high) (hcheck _ hties.high)]
    exact .inr ⟨hr, hties⟩

/-- The interpreter that looks at the store goes in lockstep with the one that does not, if the
nested steps that are possible lead to stores that pass the check. -/
theorem watchedRun_lockstep {Q : Pairing → Prop} (hQ : Pairing.Closed Q)
    (hcheck : ∀ {P}, Q P → ∀ t : Store, t.level = P.high → check t) (hP : Q P)
    (rounds calls : Nat) :
    RecurLockstep P (run rounds calls) (watchedRun check rounds calls) := by
  induction calls generalizing P with
  | zero =>
    intro α c
    exact Lockstep.throw _
  | succ calls ih =>
    intro α c
    -- watched outside the nested step and once more within it
    refine (nested_lockstep (hQ.admits hP) c (fun _ => ?_) fun {realm} hroom => ?_).watched
      (hcheck hP)
    · exact (perform_lockstep (ih hP) (.inl rfl) c).watched (hcheck hP)
    · have hraised := hQ.raised hP hroom
      exact (perform_lockstep (ih hraised) (.inl rfl) c).watched (hcheck hraised)

/-- A request is answered in lockstep if the calls that this takes go in lockstep.  Faults are
answers as well. -/
theorem answer_unfinished {self self' : Recur} (h : RecurLockstep P self self') (x : Request α)
    (hfault : ∀ f, ¬ P.cut (.fault f)) :
    Lockstep P P.Unfinished (x.answer self) (x.answer self') := by
  -- with no fault cut, what is cut is an unfinished run
  have hstopped : ∀ {β : Type} {r : Except Stop β}, P.Stopped r → P.Unfinished r := by
    intro β r hr
    match r, hr with
    | .error .unfinished, hr => exact ⟨rfl, hr⟩
    | .error (.fault f), hr => exact absurd hr (hfault f)
  cases x with
  | evaluate e content => exact (Lockstep.evaluate h e.global _).mono hstopped
  | evaluateLines e lines => exact (Lockstep.evaluate h e.global _).mono hstopped
  | read mode global source =>
    refine (Lockstep.nextForm h mode global source).mono fun {r} hr => ?_
    match r, hr with
    | .error .unfinished, hr => exact ⟨rfl, hr⟩
    | .error (.fault f), hr => exact absurd hr (hfault f)
    | .ok (.error f, _), hr => exact absurd hr (hfault f)
  | expand form env => exact (h (.expand form env)).mono hstopped
  | eval form env => exact (h (.eval form env)).mono hstopped
  | apply f args env => exact (h (.apply f args env)).mono hstopped

theorem answer_lockstep {self self' : Recur} (h : RecurLockstep P self self') (x : Request α)
    (hcut : ∀ e, ¬ P.cut e) :
    Lockstep P (fun _ => False) (x.answer self) (x.answer self') := by
  refine (answer_unfinished h x fun f => hcut _).mono fun {r} hr => ?_
  cases r with
  | ok a => exact hr
  | error e => exact hcut e hr.2

/-! ### The bounds of one realm -/

/-- Both runs are on the same levels, and one realm keeps within the bounds that it had at the
start; its limit stays. -/
structure Pairing.Kept (realm : Nat) (start : Level) (P : Pairing) : Prop where
  same : P.high = P.low
  uncut : ∀ e, ¬ P.cut e
  limit : (P.low realm).limit = start.limit
  bounds : start.Bounds (P.low realm)

theorem Pairing.kept_closed (realm : Nat) (start : Level) :
    Pairing.Closed (Pairing.Kept realm start) where
  admits h := admits_of_same h.same
  raised := by
    intro P h i hroom
    refine ⟨raised_same h.same i, h.uncut, ?_, ?_⟩
    · simp only [Pairing.raised, raise]
      split <;> exact h.limit
    · obtain ⟨hle, hlimit⟩ := h.bounds
      simp only [Pairing.raised, raise, Level.Bounds]
      split
      · next hi =>
        subst hi
        -- the step is taken only where there is room for it
        have hd : (P.low realm).depth + 1 ≤ start.limit := h.limit ▸ hroom
        exact ⟨Nat.le_succ_of_le hle, hd⟩
      · exact ⟨hle, hlimit⟩

/-- However a request ends, all realms are as deep afterwards as they were before; and while it is
answered, a realm that is not deeper than its limit stays so, and gets nowhere less deep than it was
at the start. -/
theorem nesting_balanced (a : Allowance) (x : Request α) (s : Store) (realm : Nat)
    (h : (s.level realm).depth ≤ (s.level realm).limit) :
    (x.answer a.run s).2.level = s.level ∧
      x.answer (a.watchedRun fun t => (s.level realm).Bounds (t.level realm)) s =
        x.answer a.run s := by
  -- both runs start in the one store, and nothing is cut
  let P : Pairing := ⟨fun _ => False, False, id, s.level, s.level⟩
  have hP : P.Kept realm (s.level realm) := ⟨rfl, fun _ => id, rfl, Nat.le_refl _, h⟩
  have hties : P.Ties s s := ⟨Store.Alike.refl s, rfl, rfl, False.elim⟩
  have hrun : RecurLockstep P a.run
      (a.watchedRun fun t => (s.level realm).Bounds (t.level realm)) := by
    intro β c
    refine watchedRun_lockstep (Pairing.kept_closed realm (s.level realm)) ?_ hP a.rounds a.calls c
    intro P' hP' t ht
    rw [ht, hP'.same]
    exact hP'.bounds
  rcases answer_lockstep hrun x (fun _ => id) s s hties with hn | ⟨hr, hend⟩
  · exact hn.elim
  · refine ⟨hend.low, Prod.ext hr ?_⟩
    exact hend.alike.eq_of_level (hend.high.trans hend.low.symm)

/-- Where one nested step is allowed, a list in a list is refused, and the step is given back. -/
theorem nesting_balanced_after_refusal :
    let s := ((Store.empty .empty).addRealm .preserve 1).2
    let x := Request.evaluate ⟨0, 0⟩ "((nil))"
    let a : Allowance := ⟨9, 9⟩
    (s.level 0).depth ≤ (s.level 0).limit ∧
      (x.answer a.run s).1 = .error (.fault (.stackExhausted 1)) ∧
      (x.answer a.run s).2.level = s.level ∧
      x.answer (a.watchedRun fun t => (s.level 0).Bounds (t.level 0)) s = x.answer a.run s := by
  refine ⟨by decide, rfl, ?_⟩
  exact nesting_balanced _ _ _ 0 (by decide)

end PocketLisp
