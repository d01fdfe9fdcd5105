/-
PocketLisp/Proofs/Exhausting.lean

Runs in which no nested step is refused, and how deep they are.

An interpreter that gives up where a nested step has no room
(`StopRule.exhausting`) sees nothing of the nesting but this.  So whatever it
ends in, any run from a store of the same content ends in, if there is as much
room in that store or more, and as large an allowance
(`exhausting_lockstep`).

A run that ends neither with `stackExhausted` nor unfinished has not been
refused a step, unless a program of the host has swallowed that fault
(`unrefused_of_quiet`).
-/
import PocketLisp.Proofs.Ports
import PocketLisp.Proofs.Recursion

namespace PocketLisp

variable {α : Type} {P : Pairing} {s t : Store}

/-! ### Giving up where there is no room -/

/-- Gives up where a nested step would be refused. -/
def StopRule.exhausting : StopRule := fun _ c s =>
  match c.nestsIn? with
  | none => none
  | some env => if (s.depthFault? env).isSome then some .unfinished else none

/-- In the course of a call no nested step is refused. -/
def Allowance.Unrefused (a : Allowance) (c : Call α) (s : Store) : Prop :=
  runStopping .exhausting a.rounds a.calls c s = a.run c s

namespace StopRule

theorem exhausting_of_none {c : Call α} (h : exhausting c s = none) {env : FrameId}
    (hc : c.nestsIn? = some env) : (s.level (s.realmOf env)).HasRoom := by
  simp only [exhausting, hc] at h
  split at h
  · cases h
  · next hfault => exact Store.depthFault?_eq_none_iff.mp (Option.not_isSome_iff_eq_none.mp hfault)

theorem exhausting_of_some {c : Call α} {e : Stop} (h : exhausting c s = some e) :
    e = .unfinished ∧
      ∃ env, c.nestsIn? = some env ∧ ¬ (s.level (s.realmOf env)).HasRoom := by
  unfold exhausting at h
  split at h
  · cases h
  · next env hc =>
    split at h
    · next hfault =>
      refine ⟨(Option.some.inj h).symm, env, hc, fun hroom => ?_⟩
      rw [Store.depthFault?_eq_none_iff.mpr hroom] at hfault
      cases hfault
    · cases h

end StopRule

/-! ### More room -/

/-- An unfinished first run says nothing, and there is as much room in the second run or more. -/
structure Pairing.Looser (P : Pairing) : Prop where
  cut : P.cut .unfinished
  room : ∀ i, (P.low i).room ≤ (P.high i).room

namespace Pairing

theorem Looser.hasRoom (hP : P.Looser) {i : Nat} (h : (P.low i).HasRoom) : (P.high i).HasRoom :=
  Level.hasRoom_iff.mpr (Nat.lt_of_lt_of_le (Level.hasRoom_iff.mp h) (hP.room i))

theorem room_raise (l : Nat → Level) (realm i : Nat) :
    (raise realm l i).room = if i = realm then (l i).room - 1 else (l i).room := by
  simp only [raise]
  split
  · simp only [Level.room]
    omega
  · rfl

theorem Looser.raised (hP : P.Looser) (realm : Nat) : (P.raised realm).Looser where
  cut := hP.cut
  room i := by
    simp only [Pairing.raised, room_raise]
    have hroom := hP.room i
    split <;> omega

/-- One nested step deeper in the first run only. -/
def sunk (P : Pairing) (realm : Nat) : Pairing := { P with low := raise realm P.low }

theorem Looser.sunk (hP : P.Looser) (realm : Nat) : (P.sunk realm).Looser where
  cut := hP.cut
  room i := by
    simp only [Pairing.sunk, room_raise]
    have hroom := hP.room i
    split <;> omega

theorem Ties.sink (h : P.Ties s t) {env : FrameId} (hl : (P.low (s.realmOf env)).HasRoom) :
    (P.sunk (s.realmOf env)).Ties (s.deepen env) t := by
  refine ⟨(Store.alike_deepen s env).symm.trans h.alike, ?_, h.high,
    fun hq => ⟨(h.quiet hq).hosts, (h.quiet hq).subscribers⟩⟩
  rw [← h.low] at hl
  rw [Store.level_deepen hl, h.low]
  rfl

theorem Ties.surface {realm : Nat} (h : (P.sunk realm).Ties s t) :
    P.Ties (s.riseIn realm) t := by
  refine ⟨(Store.alike_riseIn s realm).symm.trans h.alike, ?_, h.high,
    fun hq => ⟨(h.quiet hq).hosts, (h.quiet hq).subscribers⟩⟩
  rw [Store.level_riseIn, h.low]
  exact lower_raise realm P.low

end Pairing

/-- An interpreter that gives up where there is no room goes in lockstep with one that has more of
it, and of anything else. -/
theorem exhausting_lockstep (hP : P.Looser) {rounds rounds' calls calls' : Nat}
    (hrounds : rounds ≤ rounds') (hcalls : calls ≤ calls') :
    RecurLockstep P (runStopping .exhausting rounds calls) (run rounds' calls') := by
  -- on the calls; in a nested step both runs have the room that the first has
  induction calls generalizing P calls' with
  | zero => exact fun c _ _ _ => .inl (Pairing.ends_unfinished hP.cut c)
  | succ calls ih =>
    intro α c s t hst
    obtain ⟨calls', rfl⟩ := Nat.exists_eq_add_of_le' (Nat.lt_of_lt_of_le (Nat.succ_pos _) hcalls)
    have hperform {Q : Pairing} (hQ : Q.Looser) :
        RecurLockstep Q (perform (runStopping .exhausting rounds calls) rounds)
          (perform (run rounds' calls') rounds') :=
      perform_lockstep (ih hQ (Nat.le_of_succ_le_succ hcalls)) (.inr ⟨hQ.cut, hrounds⟩)
    rcases hrule : StopRule.exhausting c s with - | e
    · rw [runStopping_of_none hrule]
      refine nested_of_room c hst (fun env hc => ?_) (fun _ => hperform hP c) fun hroom =>
        hperform (hP.raised _) c
      have hroom := StopRule.exhausting_of_none hrule hc
      rw [hst.low] at hroom
      exact ⟨hroom, hP.hasRoom hroom⟩
    · -- the first run stops where it would be refused a nested step
      obtain ⟨rfl, -⟩ := StopRule.exhausting_of_some hrule
      rw [runStopping_of_some hrule]
      exact .inl (Pairing.ends_unfinished hP.cut c)

/-- Evaluating a list is a nested step, here in the first run only. -/
theorem Lockstep.sunk {free : Except Stop Value → Prop} (hcut : free (.error .unfinished))
    {form : Value} {env : FrameId} (hc : (Call.eval form env).nestsIn? = some env)
    {rounds calls : Nat} {m' : Run Value} (h : ∀ n, calls = n + 1 → ∀ realm,
      Lockstep (P.sunk realm) free
        (perform (runStopping .exhausting rounds n) rounds (.eval form env)) m') :
    Lockstep P free (runStopping .exhausting rounds calls (.eval form env)) m' := by
  cases calls with
  | zero => exact fun _ _ _ => .inl hcut
  | succ calls =>
    intro s t hst
    rcases hrule : StopRule.exhausting (Call.eval form env) s with - | e
    · have hroom := StopRule.exhausting_of_none hrule hc
      have hs : s.depthFault? env = none := Store.depthFault?_eq_none_iff.mpr hroom
      rw [hst.low] at hroom
      rw [runStopping_of_none hrule]
      simp only [Call.nested, hc, hs]
      -- there is room: the second run is still one step above
      rcases h calls rfl (s.realmOf env) _ _ (hst.sink hroom) with hfree | ⟨hr, hties⟩
      · exact .inl hfree
      · exact .inr ⟨hr, hties.surface⟩
    · obtain ⟨rfl, -⟩ := StopRule.exhausting_of_some hrule
      rw [runStopping_of_some hrule]
      exact .inl hcut

/-! ### Runs that are not refused a step -/

/-- An interpreter that gives up where there is no room does what the other does, unless that is
cut short. -/
theorem lockstep_exhausting (hcut : P.cut = Stop.Short) (hlevels : P.high = P.low)
    (rounds calls : Nat) :
    RecurLockstep P (run rounds calls) (runStopping .exhausting rounds calls) := by
  -- on the calls; where the second run stops the first is refused
  induction calls generalizing P with
  | zero => exact fun c => Lockstep.throw _
  | succ calls ih =>
    intro α c s t hst
    have hperform {Q : Pairing} (hQ : Q.cut = Stop.Short) (hQ' : Q.high = Q.low) :
        RecurLockstep Q (perform (run rounds calls) rounds)
          (perform (runStopping .exhausting rounds calls) rounds) :=
      perform_lockstep (ih hQ hQ') (.inl rfl)
    rcases hrule : StopRule.exhausting c t with - | e
    · rw [runStopping_of_none hrule]
      exact nested_lockstep (Pairing.admits_of_same hlevels) c
        (fun _ => hperform hcut hlevels c)
        (fun _ => hperform (Q := P.raised _) hcut (Pairing.raised_same hlevels _) c) s t hst
    · obtain ⟨rfl, env, hc, hroom⟩ := StopRule.exhausting_of_some hrule
      rw [hst.alike.realmOf env, hst.high, hlevels, ← hst.low] at hroom
      -- a call that is refused is cut short
      have hrefused : run rounds (calls + 1) c s =
          (c.refused (.stackExhausted (s.level (s.realmOf env)).limit), s) := by
        rw [run, Call.nested, hc]
        simp only [Store.depthFault?_of_no_room hroom]
      rw [hrefused]
      refine .inl (Pairing.ends_refused hc ?_)
      rw [hcut]
      exact .stackExhausted _

/-- Where programs of the host do not evaluate anything, an evaluation that is not cut short has not
been refused a nested step. -/
theorem unrefused_of_quiet (hs : s.Quiet) {a : Allowance} {form : Value} {env : FrameId}
    (hr : ∀ stop, (a.run (.eval form env) s).1 = .error stop → ¬ stop.Short) :
    a.Unrefused (.eval form env) s := by
  let P : Pairing := ⟨Stop.Short, True, fun _ => trivial, s.level, s.level⟩
  have hties : P.Ties s s := ⟨.refl s, rfl, rfl, fun _ => hs⟩
  rcases lockstep_exhausting (P := P) rfl rfl a.rounds a.calls (.eval form env) s s hties with
    hcut | ⟨hresult, hend⟩
  · obtain ⟨stop, hstop, hshort⟩ := hcut.eq_error
    exact absurd hshort (hr stop hstop)
  · exact Prod.ext hresult (hend.alike.eq_of_level (hend.high.trans hend.low.symm))

end PocketLisp
