/-
PocketLisp/Proofs/Limit.lean

What a higher nesting limit changes: nothing but the limit itself.

A run that ends neither with `stackExhausted` nor unfinished ends in the same
way, with the same result and in the same store, if its realm may be deeper,
and also if more calls may be active and loops may take more rounds.  The two
runs are compared step by step; a nested step for which the first has no room
cuts it off, as no construct swallows that fault.  Programs of the host could
swallow it, or count calls until it comes, so they may not ask the engine to
evaluate anything (`Store.Quiet`).

Main result: `evaluate_of_higher_limit`.
-/
import PocketLisp.Engine
import PocketLisp.Proofs.RunLockstep

namespace PocketLisp

/-! ### Setting a limit -/

/-- The store with another limit for the nesting of one realm. -/
def Store.withLimit (s : Store) (realm limit : Nat) : Store :=
  { s with realms := s.realms.modify realm fun r => { r with maxDepth := limit } }

namespace Store

variable {s t : Store}

theorem alike_withLimit (s : Store) (realm limit : Nat) : Alike s (s.withLimit realm limit) :=
  alike_modify s _ _ fun _ => rfl

/-- Setting a limit changes the level of one realm, if there is that realm. -/
theorem level_withLimit (s : Store) (realm limit i : Nat) :
    (s.withLimit realm limit).level i =
      if i = realm ∧ realm < s.realms.size then ⟨(s.level i).depth, limit⟩ else s.level i := by
  simp only [level, withLimit, Array.getD_eq_getD_getElem?, Array.getElem?_modify]
  by_cases hi : i = realm
  · subst hi
    rcases e : s.realms[i]? with - | r
    · have hsize : ¬ i < s.realms.size := by simpa using e
      simp [hsize]
    · obtain ⟨hsize, -⟩ := Array.getElem?_eq_some_iff.mp e
      simp [hsize]
  · simp [hi, Ne.symm hi]

theorem Alike.size_realms (h : Alike s t) : t.realms.size = s.realms.size := by
  refine Nat.le_antisymm (Nat.le_of_not_lt fun hlt => ?_) (Nat.le_of_not_lt fun hlt => ?_)
  · have hi := h.plain s.realms.size
    simp [hlt] at hi
  · have hi := h.plain t.realms.size
    simp [hlt] at hi

end Store

/-! ### The comparison -/

/-- Every realm is as deep in the second run as in the first, and may be as deep or deeper. -/
structure Pairing.Roomier (P : Pairing) : Prop where
  cut : P.cut = Stop.Short
  depth : ∀ i, (P.high i).depth = (P.low i).depth
  limit : ∀ i, (P.low i).limit ≤ (P.high i).limit

theorem Pairing.roomier_closed : Pairing.Closed Pairing.Roomier where
  admits := by
    intro P h i
    -- room below is room above; a refusal below is the cut
    by_cases hroom : (P.low i).HasRoom
    · refine .inl ⟨hroom, ?_⟩
      show (P.high i).depth + 1 ≤ (P.high i).limit
      rw [h.depth i]
      exact Nat.le_trans hroom (h.limit i)
    · refine .inr ⟨hroom, .inl ?_⟩
      rw [h.cut]
      exact .stackExhausted _
  raised := by
    intro P h realm _
    refine ⟨h.cut, fun i => ?_, fun i => ?_⟩
    · simp only [Pairing.raised, raise]
      split <;> simp only [h.depth i]
    · simp only [Pairing.raised, raise]
      split <;> exact h.limit i

/-- The pairing of two stores of which the second may have higher limits. -/
def Pairing.ofLimits (s t : Store) : Pairing where
  cut := Stop.Short
  quiet := True
  faults _ := trivial
  low := s.level
  high := t.level

theorem Pairing.roomier_ofLimits (s : Store) (realm : Nat) {limit limit' : Nat}
    (h : limit ≤ limit') :
    (Pairing.ofLimits (s.withLimit realm limit) (s.withLimit realm limit')).Roomier := by
  refine ⟨rfl, fun i => ?_, fun i => ?_⟩
  · simp only [Pairing.ofLimits, Store.level_withLimit]
    split <;> rfl
  · simp only [Pairing.ofLimits, Store.level_withLimit]
    split
    · exact h
    · exact Nat.le_refl _

/-- What the runs end in is told apart by the limit only. -/
theorem Pairing.Ties.eq_withLimit {s t u : Store} {realm limit limit' : Nat}
    (hrealm : realm < s.realms.size)
    (h : (Pairing.ofLimits (s.withLimit realm limit) (s.withLimit realm limit')).Ties t u) :
    u = t.withLimit realm limit' := by
  refine ((Store.alike_withLimit t realm limit').symm.trans h.alike).eq_of_level ?_
  funext i
  have hlow : t.level i = (s.withLimit realm limit).level i := congrFun h.low i
  have hhigh : u.level i = (s.withLimit realm limit').level i := congrFun h.high i
  by_cases hi : i = realm
  · subst hi
    by_cases hsize : i < t.realms.size
    · rw [hhigh, Store.level_withLimit, Store.level_withLimit, hlow, Store.level_withLimit]
      simp [hrealm, hsize]
    -- a realm that neither store has is on the default level in both
    · have hle := Nat.le_of_not_lt hsize
      have hle' : u.realms.size ≤ i := Nat.le_trans (Nat.le_of_eq h.alike.size_realms) hle
      rw [Store.level_of_size_le hle', Store.level_withLimit, Store.level_of_size_le hle]
      simp [hsize]
  · rw [hhigh, Store.level_withLimit, Store.level_withLimit, hlow, Store.level_withLimit]
    simp [hi]

/-- Whatever a text ends in, other than for want of nested steps or of an allowance, it ends in also
with a higher limit: with the same result, and in a store that differs by the limit only. -/
theorem evaluate_of_higher_limit (e : Engine) (content : String) {s : Store} (hs : s.Quiet)
    {realm limit limit' : Nat} (hrealm : realm < s.realms.size) (hlimit : limit ≤ limit')
    {a a' : Allowance} (hcalls : a.calls ≤ a'.calls) (hrounds : a.rounds ≤ a'.rounds)
    {r : Except Stop Value} {t : Store}
    (h : e.evaluate a content (s.withLimit realm limit) = (r, t))
    (hr : ∀ stop, r = .error stop → ¬ stop.Short) :
    e.evaluate a' content (s.withLimit realm limit') = (r, t.withLimit realm limit') := by
  let P := Pairing.ofLimits (s.withLimit realm limit) (s.withLimit realm limit')
  have hties : P.Ties (s.withLimit realm limit) (s.withLimit realm limit') := by
    refine ⟨?_, rfl, rfl, fun _ => ⟨hs.hosts, hs.subscribers⟩⟩
    exact (Store.alike_withLimit s realm limit).symm.trans (Store.alike_withLimit s realm limit')
  have hrun : RecurLockstep P a.run a'.run := fun c =>
    run_lockstep Pairing.roomier_closed (Pairing.roomier_ofLimits s realm hlimit)
      (.inr ⟨.unfinished, hrounds⟩) (.inr ⟨.unfinished, hcalls⟩) c
  have hstep := Lockstep.evaluate hrun e.global content.toList _ _ hties
  have hlow : Run.evaluate a.run e.global content.toList (s.withLimit realm limit) = (r, t) := h
  rw [hlow] at hstep
  -- either the low run was cut off, which the hypothesis excludes, or the two agree
  rcases hstep with hcut | ⟨hr', hend⟩
  · cases r with
    | ok v => exact hcut.elim
    | error stop => exact absurd hcut (hr stop rfl)
  · exact Prod.ext hr' (hend.eq_withLimit hrealm)

/-- Where two nested steps are enough for a text, five more of them make no difference. -/
theorem evaluate_of_higher_limit_seven :
    let s := ((Store.empty .empty).addRealm .preserve 0).2
    let e : Engine := ⟨0, 0⟩
    let content := "(if nil nil (quote t))"
    s.Quiet ∧ 0 < s.realms.size ∧ (e.evaluate ⟨9, 9⟩ content (s.withLimit 0 2)).1 = .ok .t ∧
      e.evaluate ⟨9, 9⟩ content (s.withLimit 0 7) =
        (.ok .t, (e.evaluate ⟨9, 9⟩ content (s.withLimit 0 2)).2.withLimit 0 7) := by
  intro s e content
  have hs : s.Quiet := ⟨fun h => by simp [s, Store.addRealm, Store.empty] at h,
    fun h => by simp [s, Store.addRealm, Store.empty] at h⟩
  have hrun : (e.evaluate ⟨9, 9⟩ content (s.withLimit 0 2)).1 = .ok .t := by decide +kernel
  refine ⟨hs, by decide, hrun, ?_⟩
  exact evaluate_of_higher_limit e content hs (by decide) (by decide : 2 ≤ 7) (Nat.le_refl _)
    (Nat.le_refl _) (Prod.ext hrun rfl) (by rintro _ ⟨⟩)

end PocketLisp
