/-
PocketLisp/Proofs/Chains.lean

Chains of frames end.

A frame extends an older one of the same realm, and neither is ever moved.  So
whoever follows a chain outwards comes to a global frame, and every search on
the way ends: `Store.Seeks` makes it frame by frame, with no bound for their
number, and what it finds is what the store says (`Store.Sound.grounded`).

Frames are kept in closures, in macros and by the calls that are being carried
out.  `watchedCalls` looks at the frame of a call, and at all frames of the
store, around every call.

Main result: `chains_end`.  In every store that is reached all frames are
grounded, those that are kept among them, and looking at them around every call
of an operation changes nothing.
-/
import PocketLisp.Proofs.Management
import PocketLisp.Proofs.Nesting
import PocketLisp.Proofs.Scoping

namespace PocketLisp

open Invariant

variable {α β : Type} {s t : Store}

/-! ### Searches outwards -/

namespace Store

/-- A search from a frame outwards, up to the first frame where something is found or up to the end
of the chain. -/
inductive Seeks (s : Store) (found? : FrameId → Option β) : FrameId → Option β → Prop
  | found {i : FrameId} {b : β} : found? i = some b → Seeks s found? i (some b)
  | missed {i : FrameId} : found? i = none → (s.frame i).outer = none → Seeks s found? i none
  | outward {i o : FrameId} {r : Option β} : found? i = none → (s.frame i).outer = some o →
      Seeks s found? o r → Seeks s found? i r

variable {found? : FrameId → Option β} {i : FrameId} {r r' : Option β}

/-- A search ends in one way only. -/
theorem Seeks.unique (h : s.Seeks found? i r) (h' : s.Seeks found? i r') : r = r' := by
  -- what is found in a frame is found there in one way, and so is the frame around it
  induction h with
  | found hfound =>
    cases h' with
    | found hfound' => exact hfound.symm.trans hfound'
    | missed hnone _ | outward hnone _ _ => cases hfound.symm.trans hnone
  | missed hnone houter =>
    cases h' with
    | found hfound => cases hnone.symm.trans hfound
    | missed _ _ => rfl
    | outward _ houter' _ => cases houter.symm.trans houter'
  | outward hnone houter _ ih =>
    cases h' with
    | found hfound => cases hnone.symm.trans hfound
    | missed _ houter' => cases houter.symm.trans houter'
    | outward _ houter' h' =>
      cases houter.symm.trans houter'
      exact ih h'

/-- Frames that extend each other get older, so a search comes to its end. -/
theorem Sound.seeks (hs : s.Sound) (found? : FrameId → Option β) (h : i < s.frames.size) :
    s.Seeks found? i ((s.chain i).findSome? found?) := by
  induction i using Nat.strongRecOn with
  | ind i ih =>
    rw [hs.chain_eq h, List.findSome?_cons]
    rcases hfound : found? i with - | b
    · rcases houter : (s.frame i).outer with - | o
      · exact .missed hfound houter
      · have ho := hs.outer houter
        exact .outward hfound houter (ih o ho (Nat.lt_trans ho h))
    · exact .found hfound

/-- What a search finds is the first of what there is on the chain. -/
theorem Sound.seeks_iff (hs : s.Sound) (h : i < s.frames.size) :
    s.Seeks found? i r ↔ r = (s.chain i).findSome? found? :=
  ⟨fun hr => hr.unique (hs.seeks found? h), fun hr => hr ▸ hs.seeks found? h⟩

/-! ### Grounded frames -/

/-- A frame whose chain ends with a global frame of the same realm, and from which every search
ends. -/
structure Grounded (s : Store) (i : FrameId) : Prop where
  inRange : i < s.frames.size
  /-- the chain starts with the frame, and each frame extends the next -/
  starts : (s.chain i).head? = some i
  linked : (s.chain i).IsChain fun j o => (s.frame j).outer = some o
  ends : (s.chain i).getLast? = some (s.global i) ∧ s.HasGlobal (s.global i)
  realm : ∀ j ∈ s.chain i, s.realmOf j = s.realmOf i
  /-- the value of a symbol -/
  lookup : ∀ symbol r, s.Seeks (s.bound? symbol) i r ↔ r = s.lookup? i symbol
  /-- the frame in which a symbol is assigned -/
  assign : ∀ symbol r, s.Seeks (Option.guard fun j => (s.bound? symbol j).isSome) i r ↔
    r = s.binder? i symbol
  /-- the macro that a symbol names -/
  expander : ∀ symbol r, s.Seeks (fun j => (s.frame j).expanders.get? symbol) i r ↔
    r = s.expander? i symbol
  global : ∀ r, s.Seeks (Option.guard s.isGlobal) i r ↔ r = some (s.global i)

/-- A frame is global if it extends no other. -/
theorem isGlobal_iff (h : i < s.frames.size) : s.isGlobal i = true ↔ s.HasGlobal i := by
  rw [isGlobal, Option.isNone_iff_eq_none, hasGlobal_iff]
  exact ⟨fun houter => ⟨h, houter⟩, And.right⟩

theorem Sound.head?_chain (hs : s.Sound) (h : i < s.frames.size) :
    (s.chain i).head? = some i := by
  rw [hs.chain_eq h]
  rfl

theorem Sound.isChain_chain (hs : s.Sound) (h : i < s.frames.size) :
    (s.chain i).IsChain fun j o => (s.frame j).outer = some o := by
  induction i using Nat.strongRecOn with
  | ind i ih =>
    rw [hs.chain_eq h]
    rcases houter : (s.frame i).outer with - | o
    · exact .singleton i
    · have ho := hs.outer houter
      have hrange := Nat.lt_trans ho h
      have hrest := ih o ho hrange
      dsimp only
      rw [hs.chain_eq hrange] at hrest ⊢
      exact .cons_cons houter hrest

theorem Sound.grounded (hs : s.Sound) (h : i < s.frames.size) : s.Grounded i := by
  obtain ⟨locals, hchain, hglobal, hlocals⟩ := hs.exists_locals h
  refine ⟨h, hs.head?_chain h, hs.isChain_chain h, ⟨?_, hglobal⟩, hs.realm_chain,
    fun _ _ => hs.seeks_iff h, fun symbol r => ?_, fun _ _ => hs.seeks_iff h, fun r => ?_⟩
  · rw [hchain, List.getLast?_concat]
  · rw [hs.seeks_iff h, List.findSome?_guard]
    rfl
  · have hnone : locals.find? s.isGlobal = none := by
      refine List.find?_eq_none.mpr fun j hj hj' => hlocals j hj ?_
      have hmem : j ∈ s.chain i := hchain ▸ List.mem_append_left _ hj
      exact (isGlobal_iff (hs.inRange_chain h j hmem)).mp hj'
    have hlast : s.isGlobal (s.global i) = true :=
      (isGlobal_iff (hasGlobal_iff.mp hglobal).1).mpr hglobal
    rw [hs.seeks_iff h, List.findSome?_guard, hchain, List.find?_append, hnone,
      List.find?_singleton, hlast]
    rfl

/-! ### Stores of which all chains end -/

/-- A store in which all frames are grounded, those in which closures and macros have been made
among them.  Frames are numbered in the order in which they are made. -/
structure Chained (s : Store) : Prop where
  wellFounded : WellFounded fun o i => (s.frame i).outer = some o
  older : ∀ {i o}, (s.frame i).outer = some o → o < i
  frames : ∀ i < s.frames.size, s.Grounded i
  closures : ∀ c < s.closures.size, s.Grounded (s.closure c).env
  expanders : ∀ {i symbol c}, (s.frame i).expanders.get? symbol = some c →
    s.Grounded (s.closure c).env

theorem Sound.chained (hs : s.Sound) : s.Chained where
  wellFounded := Subrelation.wf hs.outer Nat.lt_wfRel.wf
  older := hs.outer
  frames _ := hs.grounded
  closures _ hc := hs.grounded (hs.env hc)
  expanders {i symbol c} hc := by
    have hi : i < s.frames.size := by
      refine Nat.lt_of_not_le fun hle => ?_
      rw [frame_of_le hle] at hc
      cases hc
    exact hs.grounded ((soundness s).env (.refl _ hs) (Nat.zero_lt_of_lt hi))

end Store

/-! ### Looking at the frames of calls -/

/-- The frame that a call is given. -/
def Call.env? : Call α → Option FrameId
  | .eval _ env | .apply _ _ env | .expand _ env | .parse _ _ env _ => some env
  | .emit .. => none

/-- The frame of a call is grounded, and so are all that the store keeps. -/
def Call.Grounded (c : Call α) (s : Store) : Prop :=
  s.Chained ∧ ∀ env ∈ c.env?, s.Grounded env

noncomputable instance (c : Call α) : DecidablePred c.Grounded :=
  fun _ => Classical.propDecidable _

/-- Carries out a call as `run` does, and looks at its frame and at the store around every call and
inside of every nested step. -/
noncomputable def watchedCalls (rounds : Nat) : (calls : Nat) → Recur
  | 0, _, _ => Run.unfinished
  | calls + 1, _, c =>
    watched c.Grounded
      (c.nested (watched c.Grounded (perform (watchedCalls rounds calls) rounds c)))

section Watching

variable {s₀ : Store}

/-- A call that is allowed is given a frame of the store. -/
theorem Call.Allowed.grounded {c : Call α} (hc : c.Allowed (soundness s₀) s) : c.Grounded s := by
  obtain ⟨hused, hholds⟩ := hc
  have hs : s.Sound := hholds.heap.sound
  refine ⟨hs.chained, fun env henv => hs.grounded ?_⟩
  cases c with
  | eval form i | expand form i =>
    cases henv
    exact hused.2
  | apply f args i =>
    cases henv
    exact hused.2.2
  | parse token mode i source =>
    cases henv
    exact hused
  | emit channel content => cases henv

/-- Looking at the store does not change it. -/
theorem Invariant.Keeps.watched {I : Invariant} {Q : Store → α → Prop} {check : Store → Prop}
    [DecidablePred check] {m : Run α} (h : I.Keeps s m Q) :
    I.Keeps s (PocketLisp.watched check m) Q := by
  intro hs
  have hkept := h hs
  unfold PocketLisp.watched
  rcases hm : m s with ⟨r, t⟩
  rw [hm] at hkept
  obtain ⟨hholds, hlarger, hresult⟩ := hkept
  split
  · show I.Kept s Q (if check t then (r, t) else (.error .unfinished, t))
    split
    · exact ⟨hholds, hlarger, hresult⟩
    · exact ⟨hholds, hlarger, nofun⟩
  · exact ⟨hs, .refl s, nofun⟩

theorem watchedCalls_keeps {I : Invariant} (rounds calls : Nat) :
    RecurKeeps I (watchedCalls rounds calls) := by
  induction calls with
  | zero => exact fun _ _ _ => Keeps.throw _
  | succ calls ih =>
    intro α c s hc
    refine (nested_keeps c fun t ht => ?_).watched
    exact (perform_keeps ih rounds c t (Call.InUse.mono c hc ht)).watched

/-- An activity does the same with ways to carry out calls that do the same where these are
allowed. -/
theorem ComposedOf.eq_of_allowed {O : Kind} {C : CallKind} {I : Invariant} {m : Recur → Run α}
    {Q : Store → α → Prop} (hm : ComposedOf O C m)
    (hkeeps : ∀ self, RecurKeeps I self → I.Keeps s (m self) Q) {self self' : Recur}
    (hself : RecurKeeps I self) (hself' : RecurKeeps I self')
    (h : ∀ {α : Type} (c : Call α) (s : Store), c.Allowed I s → self' c s = self c s)
    (hs : I.Holds s) : m self' s = m self s := by
  rw [← hm.guarded hkeeps hself hs, ← hm.guarded hkeeps hself' hs, Recur.guarded_congr h]

/-- What is looked at around the calls of a run is as it should be. -/
theorem watchedCalls_apply (rounds calls : Nat) (c : Call α) (s : Store)
    (hc : c.Allowed (soundness s₀) s) : watchedCalls rounds calls c s = run rounds calls c s := by
  -- on the calls: the stores in which they are made are allowed, so the checks pass
  induction calls generalizing α s with
  | zero => rfl
  | succ calls ih =>
    have hbody : Coincides (c.Allowed (soundness s₀)) (perform (run rounds calls) rounds c)
        (watched c.Grounded (perform (watchedCalls rounds calls) rounds c)) := by
      intro t ht
      -- both bodies are composed of the same calls
      have heq : perform (watchedCalls rounds calls) rounds c t =
          perform (run rounds calls) rounds c t :=
        (perform_composed_or_marks rounds c).eq_of_allowed
          (fun self hkeeps => perform_keeps hkeeps rounds c t ht.1) (run_keeps rounds calls)
          (watchedCalls_keeps rounds calls) ih ht.2
      have hkept := perform_keeps (run_keeps rounds calls) rounds c t ht.1 ht.2
      have hend : c.Allowed (soundness s₀) (perform (run rounds calls) rounds c t).2 :=
        ⟨Call.InUse.mono c ht.1 hkept.larger, hkept.holds⟩
      refine ⟨?_, hend⟩
      rw [watched_of ht.grounded (heq ▸ hend.grounded), heq]
    obtain ⟨heq, hend⟩ := Coincides.nested c hbody
      (fun t env ht => ht.of_sameHeap (.deepen t env) rfl rfl)
      (fun t realm ht => ht.of_sameHeap (.riseIn t realm) rfl rfl) s hc
    exact (watched_of hc.grounded (heq ▸ hend.grounded)).trans heq

end Watching

/-! ### Operations -/

/-- Carries out an operation, given a way to carry out calls. -/
def Operation.runBy (self : Recur) : Operation α → Run α
  | .create config => do
    let e ← Engine.bare config
    e.startBy self config.initFile
    return e
  | .evaluate e content => Run.evaluate self e.global content.toList
  | .evaluateLines e lines => Run.evaluate self e.global (Engine.prognText lines).toList
  | .readForm e content => do
    let (form, _) ← self.form .code e.global content.toList
    form
  | .expand form env => self (.expand form env)
  | .program p => Run.program self p
  -- the others make no calls
  | x => x.run ⟨0, 0⟩

namespace Operation

theorem runBy_run (a : Allowance) (x : Operation α) : x.runBy a.run = x.run a := by
  cases x with
  | create config =>
    have hstart := fun e : Engine => e.startBy_run a config.initFile
    simp only [runBy, hstart]
    rfl
  | _ => rfl

end Operation

/-- An operation does the same with ways to carry out calls that do the same where these are
allowed. -/
theorem Operation.runBy_congr {s₀ : Store} {self self' : Recur}
    (hself : RecurKeeps (soundness s₀) self) (hself' : RecurKeeps (soundness s₀) self')
    (h : ∀ {α : Type} (c : Call α) (s : Store), c.Allowed (soundness s₀) s →
      self' c s = self c s)
    (x : Operation α) (hx : x.Admissible s) (hs : (soundness s₀).Holds s) :
    x.runBy self' s = x.runBy self s := by
  have hsame : ∀ {α : Type} {m : Recur → Run α} {Q : Store → α → Prop},
      Managed (fun _ => True) (fun _ => True) m →
      (∀ self, RecurKeeps (soundness s₀) self → (soundness s₀).Keeps s (m self) Q) →
      m self' s = m self s :=
    fun hm hkeeps => hm.eq_of_allowed hkeeps hself hself' h hs
  -- each operation is composed of calls, or makes none
  cases x with
  | create config =>
    refine hsame (m := fun self => Engine.bare config >>= fun e =>
      e.startBy self config.initFile >>= fun _ => pure e) (Q := fun _ _ => True)
      ?_ fun self hk => ?_
    · exact (Managed.bare config).bind fun e =>
        (Managed.startBy trivial config.initFile).bind fun _ => .pure e
    · refine (keeps_bare config).bind fun t e _ he => ?_
      exact (Keeps.startBy hk he config.initFile).bind fun _ _ _ _ => Keeps.pure fun _ => trivial
  | evaluate e content =>
    exact hsame (.of_in (ComposedOf.evaluate trivial content.toList))
      fun _ hk => Keeps.evaluate hk hx content.toList
  | evaluateLines e lines =>
    exact hsame (.of_in (ComposedOf.evaluate trivial (Engine.prognText lines).toList))
      fun _ hk => Keeps.evaluate hk hx (Engine.prognText lines).toList
  | readForm e content =>
    refine hsame (m := fun self => self.form .code e.global content.toList >>= fun p =>
      Run.ofExcept p.1) (Q := fun _ _ => True) (.of_in ?_) fun self hk => ?_
    · exact (ComposedOf.nextForm .code trivial _).bind fun p => ComposedOf.ofExcept p.1
    · exact (Keeps.nextForm hk hx .code _).bind fun _ _ _ _ => Keeps.ofExcept fun _ _ _ => trivial
  | expand form env =>
    refine hsame (m := fun self => self (.expand form env)) (Q := (soundness s₀).InUse)
      (.call _ trivial) fun self hk => ?_
    exact hk (.expand form env) s ⟨fun _ _ => Nat.zero_lt_of_lt hx, hx⟩
  | program p =>
    exact hsame (.of_in (ComposedOf.program p.readsIn_true)) fun _ hk => Keeps.program hk hx
  | _ => rfl

/-! ### Main result -/

/-- In every store that is reached, frames extend older ones, all chains end with global frames and
stay within one realm, and all searches on them end, also from where closures and macros have been
made.  No frame is moved later; and an operation that looks at the frames of its calls, and at all
frames, around every call does the same as one that does not. -/
theorem chains_end {files : FileTree} (hs : Store.Reachable files s) :
    s.Chained ∧
    (∀ t, s.History (fun _ => False) t → s.frames.size ≤ t.frames.size ∧
      ∀ i < s.frames.size, (t.frame i).outer = (s.frame i).outer ∧ t.realmOf i = s.realmOf i) ∧
    ∀ {α : Type} (x : Operation α) (a : Allowance), x.Admissible s →
      x.runBy (watchedCalls a.rounds a.calls) s = x.run a s := by
  have hholds : (soundness s).Holds s := hs.holds _
  refine ⟨hholds.heap.sound.chained, fun t ht => ?_, fun x a hx => ?_⟩
  · have hheap := (ht.holds hholds).heap
    exact ⟨hheap.size, fun i hi => ⟨hheap.outer hi, hheap.realmOf hi⟩⟩
  · rw [← x.runBy_run a]
    exact x.runBy_congr (run_keeps a.rounds a.calls) (watchedCalls_keeps a.rounds a.calls)
      (watchedCalls_apply a.rounds a.calls) hx hholds

/-- A closure of one engine is called by another one, whose text then ends too early. -/
theorem chains_end_of_shared_closure :
    let a : Allowance := ⟨20, 20⟩
    let s₀ := ((Operation.environment .preserve 9).run a (.empty .empty)).2
    let s₁ := ((Operation.environment .upper 9).run a s₀).2
    let maker := Operation.evaluate ⟨0, 0⟩ "((lambda (x) (lambda (y) x)) t)"
    let keep : Value := .function (.closure ⟨1, none⟩)
    let s := ((Operation.setVariable ⟨1, 0⟩ "g" keep).run a (maker.run a s₁).2).2
    let caller := Operation.evaluate ⟨1, 0⟩ "(g 2) (g"
    let t := (caller.run a s).2
    (maker.run a s₁).1 = .ok keep ∧ s.chain (s.closure 1).env = [2, 0] ∧
      s.Grounded (s.closure 1).env ∧
      (caller.run a s).1 = .error (.fault .unexpectedEnd) ∧
      caller.runBy (watchedCalls a.rounds a.calls) s = caller.run a s ∧
      t.chain 3 = [3, 2, 0] ∧ t.Grounded 3 := by
  intro a s₀ s₁ maker keep s caller t
  -- two engines, a closure made in the first and kept in the second
  have hs₀ : Store.Reachable .empty s₀ := .step .start a (.environment .preserve 9) trivial trivial
  have hs₁ : Store.Reachable .empty s₁ := .step hs₀ a (.environment .upper 9) trivial trivial
  have hmaker : 0 < s₁.frames.size := by decide +kernel
  have hmade : Store.Reachable .empty (maker.run a s₁).2 := .step hs₁ a maker hmaker trivial
  have hkept : 1 < (maker.run a s₁).2.frames.size := by decide +kernel
  have hs : Store.Reachable .empty s :=
    .step hmade a (.setVariable ⟨1, 0⟩ "g" keep) hkept trivial
  -- the second calls it, and its text ends in the middle of a form
  have hcaller : 1 < s.frames.size := by decide +kernel
  have ht : Store.Reachable .empty t := .step hs a caller hcaller trivial
  obtain ⟨hchained, -, hwatched⟩ := chains_end hs
  refine ⟨by decide +kernel, by decide +kernel, hchained.closures 1 (by decide +kernel),
    by decide +kernel, hwatched caller a hcaller, by decide +kernel, ?_⟩
  exact (chains_end ht).1.frames 3 (by decide +kernel)

end PocketLisp
