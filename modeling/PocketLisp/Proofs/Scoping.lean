/-
PocketLisp/Proofs/Scoping.lean

Where macros are registered.

A macro is registered in the frame in which its definition is read, and texts
are read in global frames.  That this holds throughout a run depends on two
things that are known apart: that a run only calls what is in use, which the
invariants of the heap say, and that it registers macros in frames of a kind
only, if it reads texts in these, which its composition says.  The first is
brought to the second by a run in which calls of what is not in use are not
carried out: it makes no difference (`ComposedOf.guarded`).

Main result: if a host adds no functions, and its programs read texts in global
frames, then in all stores that are reached macros are registered in global
frames only (`Store.Standing.toScoped`), and so it is at every call on the way
(`run_coincides`).
-/
import PocketLisp.Proofs.Growth
import PocketLisp.Proofs.Later
import PocketLisp.Proofs.Management
import PocketLisp.Proofs.Ports

namespace PocketLisp

open Invariant

variable {α : Type} {s t : Store}

/-! ### Calls that are not carried out -/

open Classical in
/-- Carries out calls where they are allowed, and gives up elsewhere. -/
noncomputable def Recur.guarded (self : Recur) (G : ∀ ⦃α : Type⦄, Call α → Store → Prop) : Recur :=
  fun _ c s => if G c s then self c s else (.error .unfinished, s)

theorem Recur.guarded_of {self : Recur} {G : ∀ ⦃α : Type⦄, Call α → Store → Prop} {c : Call α}
    (h : G c s) : self.guarded G c s = self c s := if_pos h

theorem Recur.guarded_of_not {self : Recur} {G : ∀ ⦃α : Type⦄, Call α → Store → Prop} {c : Call α}
    (h : ¬ G c s) : self.guarded G c s = (.error .unfinished, s) := if_neg h

/-- Ways to carry out calls that do the same where these are allowed are the same where the others
are not carried out. -/
theorem Recur.guarded_congr {self self' : Recur} {G : ∀ ⦃α : Type⦄, Call α → Store → Prop}
    (h : ∀ {α : Type} (c : Call α) (s : Store), G c s → self' c s = self c s) :
    self'.guarded G = self.guarded G := by
  funext β c t
  by_cases hc : G c t
  · rw [Recur.guarded_of hc, Recur.guarded_of hc, h c t hc]
  · rw [Recur.guarded_of_not hc, Recur.guarded_of_not hc]

/-- A call that is given what is in use, where the invariant holds. -/
def Call.Allowed (I : Invariant) ⦃α : Type⦄ (c : Call α) (s : Store) : Prop :=
  c.InUse I s ∧ I.Holds s

theorem Call.Allowed.of_sameHeap {I : Invariant} {c : Call α} (hc : c.Allowed I s)
    (h : s.SameHeap t) (hhosts : t.hosts = s.hosts) (hchannels : t.channels = s.channels) :
    c.Allowed I t :=
  ⟨Call.InUse.mono c hc.1 h.larger, hc.2.of_hosting h (hc.2.hosting.of_same hhosts hchannels)⟩

/-- There is a store of which an invariant does not hold: a frame extends itself. -/
theorem Invariant.exists_not_holds (I : Invariant) : ∃ s, ¬ I.Holds s := by
  refine ⟨{ Store.empty .empty with frames := #[⟨0, some 0, [], []⟩] }, fun h => ?_⟩
  exact absurd ((I.sound h.heap).outer (i := 0) (o := 0) rfl) (Nat.lt_irrefl 0)

/-- Three runs do the same, or the first one gives up in a spoiled store. -/
def SameUnlessSpoiled (bad : Store) (m m' m'' : Run α) : Prop :=
  ∀ s, m s = (.error .unfinished, bad) ∨ m' s = m s ∧ m'' s = m s

namespace SameUnlessSpoiled

variable {β : Type} {bad : Store} {m m' m'' : Run α} {k k' k'' : α → Run β}

protected theorem bind (h : SameUnlessSpoiled bad m m' m'')
    (hk : ∀ a, SameUnlessSpoiled bad (k a) (k' a) (k'' a)) :
    SameUnlessSpoiled bad (m >>= k) (m' >>= k') (m'' >>= k'') := by
  intro s
  rcases h s with hspoiled | ⟨heq, heq'⟩
  · exact .inl (Run.bind_apply_error hspoiled)
  · rw [Run.bind_apply, Run.bind_apply, Run.bind_apply, heq, heq']
    rcases m s with ⟨e | a, t⟩
    · exact .inr ⟨rfl, rfl⟩
    · exact hk a t

protected theorem observe (h : SameUnlessSpoiled bad m m' m'') :
    SameUnlessSpoiled bad (Run.observe m) (Run.observe m') (Run.observe m'') := by
  intro s
  rw [Run.observe_apply, Run.observe_apply, Run.observe_apply]
  rcases h s with hspoiled | ⟨heq, heq'⟩
  · exact .inl (by rw [hspoiled])
  · exact .inr ⟨by rw [heq], by rw [heq']⟩

end SameUnlessSpoiled

/-- An activity that keeps an invariant, whatever its calls do, calls only what is in use, and this
where the invariant holds. -/
theorem ComposedOf.guarded {I : Invariant} {O : Kind} {C : CallKind} {m : Recur → Run α}
    {Q : Store → α → Prop} (hm : ComposedOf O C m)
    (hkeeps : ∀ self, RecurKeeps I self → I.Keeps s (m self) Q) {self : Recur}
    (hself : RecurKeeps I self) (hs : I.Holds s) :
    m (self.guarded (Call.Allowed I)) s = m self s := by
  classical
  obtain ⟨bad, hbad⟩ := I.exists_not_holds
  -- a call that is not allowed may as well spoil the store, but the activity keeps the invariant
  let strict : Recur := fun _ c s => if c.Allowed I s then self c s else (.error .unfinished, bad)
  have hstrict : RecurKeeps I strict := by
    intro α c s hc hs
    have heq : strict c s = self c s := if_pos ⟨hc, hs⟩
    show I.Kept s _ (strict c s)
    rw [heq]
    exact hself c s hc hs
  have hsame : SameUnlessSpoiled bad (m strict) (m self) (m (self.guarded (Call.Allowed I))) := by
    clear hkeeps Q
    induction hm with
    | pure a | throw e | update _ => exact fun _ => .inr ⟨rfl, rfl⟩
    | call c _ =>
      intro s
      by_cases hc : c.Allowed I s
      · have heq : strict c s = self c s := if_pos hc
        exact .inr ⟨heq.symm, (Recur.guarded_of hc).trans heq.symm⟩
      · exact .inl (if_neg hc)
    | bind _ _ ih ihk => exact ih.bind ihk
    | observe _ ih => exact ih.observe
  -- the strict calls left no spoiled store, so no call was outside the allowed ones
  rcases hsame s with hspoiled | ⟨heq, heq'⟩
  · have hkept := (hkeeps strict hstrict hs).holds
    rw [hspoiled] at hkept
    exact absurd hkept hbad
  · rw [heq, heq']

/-! ### Global frames -/

namespace Store

theorem hasGlobal_iff {i : FrameId} :
    s.HasGlobal i ↔ i < s.frames.size ∧ (s.frame i).outer = none := by
  constructor
  · rintro ⟨f, hf, houter⟩
    exact ⟨(Array.getElem?_eq_some_iff.mp hf).1, by rw [frame_eq_of_getElem? hf, houter]⟩
  · rintro ⟨hi, houter⟩
    exact ⟨s.frame i, getElem?_frames hi, houter⟩

theorem hasGlobal_congr (h : t.frames = s.frames) (i : FrameId) :
    t.HasGlobal i ↔ s.HasGlobal i := by
  rw [HasGlobal, h, HasGlobal]

theorem SameShape.hasGlobal (h : s.SameShape t) (i : FrameId) : t.HasGlobal i ↔ s.HasGlobal i := by
  rw [hasGlobal_iff, hasGlobal_iff, h.size, h.outer]

theorem Later.hasGlobal (h : s.Later t) {i : FrameId} (hi : s.HasGlobal i) : t.HasGlobal i := by
  obtain ⟨f, hf, houter⟩ := hi
  obtain ⟨f', hf', houter', -⟩ := h.frames hf
  exact ⟨f', hf', houter'.trans houter⟩

/-- A chain ends with a global frame, and the frames before it are local. -/
theorem Sound.exists_locals (hs : s.Sound) {env : FrameId} (h : env < s.frames.size) :
    ∃ locals, s.chain env = locals ++ [s.global env] ∧ s.HasGlobal (s.global env) ∧
      ∀ i ∈ locals, ¬ s.HasGlobal i := by
  suffices hsplit : ∃ locals g, s.chain env = locals ++ [g] ∧ s.HasGlobal g ∧
      ∀ i ∈ locals, ¬ s.HasGlobal i by
    obtain ⟨locals, g, hchain, hg, hlocals⟩ := hsplit
    have hglobal : s.global env = g := by rw [global, hchain, List.getLastD_concat]
    exact ⟨locals, hglobal.symm ▸ hchain, hglobal.symm ▸ hg, hlocals⟩
  induction env using Nat.strongRecOn with
  | ind i ih =>
    rw [hs.chain_eq h]
    -- the frame without an outer one is global, and any other is a local one
    rcases houter : (s.frame i).outer with - | o
    · exact ⟨[], i, rfl, hasGlobal_iff.mpr ⟨h, houter⟩,
        fun _ hi => absurd hi List.not_mem_nil⟩
    · have ho := hs.outer houter
      obtain ⟨locals, g, hchain, hg, hlocals⟩ := ih o ho (Nat.lt_trans ho h)
      have hlocal : ¬ s.HasGlobal i := fun hi => by
        rw [(hasGlobal_iff.mp hi).2] at houter
        cases houter
      exact ⟨i :: locals, g, congrArg (i :: ·) hchain, hg,
        List.forall_mem_cons.mpr ⟨hlocal, hlocals⟩⟩

end Store

/-! ### Frames of macros -/

/-- A program that reads texts in some frames reads them in more frames. -/
theorem HostProgram.ReadsIn.mono {P P' : FrameId → Prop} (hP : ∀ i, P i → P' i) {p : HostProgram}
    (h : p.ReadsIn P) : p.ReadsIn P' := by
  induction p with
  | done _ | fail _ => trivial
  | list _ _ ih | text _ _ ih => exact fun v => ih v (h v)
  | isGlobal _ _ ih => exact fun b => ih b (h b)
  | boundSymbols _ _ ih => exact fun symbols => ih symbols (h symbols)
  | define _ _ _ _ ih => exact fun r => ih r (h r)
  | eval _ _ _ ih | apply _ _ _ _ ih => exact fun r => ih r (h r)
  | evaluate _ _ _ ih => exact ⟨hP _ h.1, fun r => ih r (h.2 r)⟩
  | emit _ _ _ ih | note _ _ ih => exact ih h
  | subscribe _ _ _ ihreact ih => exact ⟨fun content => ihreact content (h.1 content), ih h.2⟩

namespace Store

/-- Macros are registered in frames of a kind only, all of which are global, and the subscribers of
the host read texts in these; there are no functions of the host. -/
structure MacrosIn (P : FrameId → Prop) (s : Store) : Prop where
  roots : ∀ i, P i → s.HasGlobal i
  macros : ∀ {i : FrameId} {symbol : Symbol} {c : Nat},
    (s.frame i).expanders.get? symbol = some c → P i
  hosting : s.Hosting (fun _ => False) fun react => ∀ content, (react content).ReadsIn P

namespace MacrosIn

variable {P : FrameId → Prop}

theorem toGlobal (h : s.MacrosIn P) : s.MacrosIn s.HasGlobal where
  roots _ := id
  macros hc := h.roots _ (h.macros hc)
  hosting := h.hosting.mono (fun _ => id) fun _ hr content => (hr content).mono h.roots

/-- What leaves the frames alone. -/
theorem of_frames (h : s.MacrosIn P) (hframes : t.frames = s.frames)
    (hhosting : t.Hosting (fun _ => False) fun react => ∀ content, (react content).ReadsIn P) :
    t.MacrosIn P where
  roots i hi := (hasGlobal_congr hframes i).mpr (h.roots i hi)
  macros {i _ _} hc := by
    rw [frame, hframes] at hc
    exact h.macros hc
  hosting := hhosting

theorem of_same (h : s.MacrosIn P) (hframes : t.frames = s.frames) (hhosts : t.hosts = s.hosts)
    (hchannels : t.channels = s.channels) : t.MacrosIn P :=
  h.of_frames hframes (h.hosting.of_same hhosts hchannels)

/-- What changes frames, but leaves them where they are. -/
theorem of_sameShape (h : s.MacrosIn P) (hshape : s.SameShape t)
    (hmacros : ∀ {i : FrameId} {symbol : Symbol} {c : Nat},
      (t.frame i).expanders.get? symbol = some c → P i)
    (hhosts : t.hosts = s.hosts) (hchannels : t.channels = s.channels) : t.MacrosIn P :=
  ⟨fun i hi => (hshape.hasGlobal i).mpr (h.roots i hi), hmacros,
    h.hosting.of_same hhosts hchannels⟩

theorem bindAt (h : s.MacrosIn P) (i : FrameId) (symbol : Symbol) (v : Value) :
    (s.bindAt i symbol v).MacrosIn P := by
  refine h.of_sameShape (sameShape_bindAt s i symbol v) (fun {j name c} hc => ?_) rfl rfl
  rw [frame_bindAt] at hc
  split at hc <;> exact h.macros hc

theorem bindExpander (h : s.MacrosIn P) {i : FrameId} (hi : P i) (symbol : Symbol) (c : Nat) :
    (s.bindExpander i symbol c).MacrosIn P := by
  refine h.of_sameShape (sameShape_bindExpander s i symbol c) (fun {j name c'} hc => ?_) rfl rfl
  rw [frame_bindExpander] at hc
  split at hc
  · next hij => exact hij.1 ▸ hi
  · exact h.macros hc

theorem clear (h : s.MacrosIn P) (i : FrameId) : (s.clear i).MacrosIn P := by
  refine h.of_sameShape (sameShape_clear s i) (fun {j name c} hc => ?_) rfl rfl
  rw [frame_clear] at hc
  split at hc
  · cases hc
  · exact h.macros hc

/-- A new frame has no macros. -/
theorem extend (h : s.MacrosIn P) (env : FrameId) : (s.extend env).2.MacrosIn P where
  roots i hi := (Later.extend s env).hasGlobal (h.roots i hi)
  macros hc := by
    rw [frame_extend] at hc
    split at hc
    · cases hc
    · exact h.macros hc
  hosting := h.hosting.of_same rfl rfl

theorem addRealm (h : s.MacrosIn P) (caseRule : CaseRule) (maxDepth : Nat) :
    (s.addRealm caseRule maxDepth).2.MacrosIn P where
  roots i hi := by
    have hold := hasGlobal_iff.mp (h.roots i hi)
    have hsize : (s.addRealm caseRule maxDepth).2.frames.size = s.frames.size + 1 :=
      Array.size_push ..
    refine hasGlobal_iff.mpr ⟨Nat.lt_of_lt_of_le hold.1 (hsize ▸ Nat.le_succ _), ?_⟩
    rw [frame_addRealm, if_neg (Nat.ne_of_lt hold.1), hold.2]
  macros hc := by
    rw [frame_addRealm] at hc
    split at hc
    · cases hc
    · exact h.macros hc
  hosting := h.hosting.of_same rfl rfl

end MacrosIn

end Store

section Operations

variable {P : FrameId → Prop} {f : Store → α × Store}

theorem OperatesIn.macrosIn (hf : OperatesIn P f) (hs : s.MacrosIn P) : (f s).2.MacrosIn P := by
  cases hf with
  | bindAt i symbol v => exact hs.bindAt i symbol v
  | bindExpander symbol c hi => exact hs.bindExpander hi symbol c
  | extend env => exact hs.extend env
  | countCall i => exact hs.of_frames (Store.frames_countCall s i) (hs.hosting.countCall i)
  | subscribe channel hreact => exact hs.of_frames rfl (hs.hosting.subscribe channel hreact)
  | _ => exact hs.of_same rfl rfl rfl

/-- The operations of a host keep macros where they are registered, if no functions are added. -/
theorem Manages.macrosIn (hf : Manages P (fun _ => False) f) (hs : s.MacrosIn P) :
    (f s).2.MacrosIn P := by
  cases hf with
  | operates hf => exact hf.macrosIn hs
  | addRealm caseRule maxDepth => exact hs.addRealm caseRule maxDepth
  | addChannel => exact hs.of_frames rfl hs.hosting.addChannel
  | addHost hf => exact hf.elim
  | clear i => exact hs.clear i
  | _ => exact hs.of_same rfl rfl rfl

/-- Programs make no global frames. -/
theorem OperatesIn.hasGlobal (hf : OperatesIn P f) {i : FrameId} (hi : (f s).2.HasGlobal i) :
    s.HasGlobal i := by
  cases hf with
  | bindAt j symbol v => exact ((Store.sameShape_bindAt s j symbol v).hasGlobal i).mp hi
  | bindExpander symbol c _ => exact ((Store.sameShape_bindExpander s _ symbol c).hasGlobal i).mp hi
  | extend env =>
    -- a new frame has an outer frame, so it is none of the global ones
    obtain ⟨hlt, houter⟩ := Store.hasGlobal_iff.mp hi
    rw [Store.frame_extend] at houter
    split at houter
    · cases houter
    · next hne =>
      rw [Store.size_extend] at hlt
      exact Store.hasGlobal_iff.mpr
        ⟨Nat.lt_of_le_of_ne (Nat.le_of_lt_succ hlt) hne, houter⟩
  | countCall j => exact (Store.hasGlobal_congr (Store.frames_countCall s j) i).mp hi
  | _ => exact hi

end Operations

/-! ### Activities -/

/-- A store that a run has come to from another one: no frame has been moved, no global frame has
been added, and macros are registered in global frames only. -/
structure Store.ScopedSince (s₀ t : Store) : Prop where
  later : s₀.Later t
  globals : ∀ {i : FrameId}, t.HasGlobal i → s₀.HasGlobal i
  macrosIn : t.MacrosIn s₀.HasGlobal

namespace Store.ScopedSince

variable {s₀ : Store}

theorem of_frames (h : s₀.ScopedSince s) (hframes : t.frames = s.frames)
    (hhosting : t.Hosting (fun _ => False) fun react =>
      ∀ content, (react content).ReadsIn s₀.HasGlobal) : s₀.ScopedSince t where
  later := h.later.trans (.of_frames hframes)
  globals hi := h.globals ((hasGlobal_congr hframes _).mp hi)
  macrosIn := h.macrosIn.of_frames hframes hhosting

theorem of_same (h : s₀.ScopedSince s) (hframes : t.frames = s.frames) (hhosts : t.hosts = s.hosts)
    (hchannels : t.channels = s.channels) : s₀.ScopedSince t :=
  h.of_frames hframes (h.macrosIn.hosting.of_same hhosts hchannels)

theorem setBusy (h : s₀.ScopedSince s) (channel i : Nat) (busy : Bool) :
    s₀.ScopedSince (s.setBusy channel i busy) :=
  h.of_frames rfl (h.macrosIn.hosting.setBusy channel i busy)

theorem operatesIn (h : s₀.ScopedSince s) {f : Store → α × Store}
    (hf : OperatesIn s₀.HasGlobal f) : s₀.ScopedSince (f s).2 where
  later := h.later.trans (leads_later.operation (.operates hf.forget) s)
  globals hi := h.globals (hf.hasGlobal hi)
  macrosIn := hf.macrosIn h.macrosIn

/-- The outermost frame of a chain is one of those that there were before. -/
theorem hasGlobal_global (h : s₀.ScopedSince s) (hs : s.Sound) {env : FrameId}
    (henv : env < s.frames.size) : s₀.HasGlobal (s.global env) := by
  obtain ⟨_, _, hglobal, _⟩ := hs.exists_locals henv
  exact h.globals hglobal

end Store.ScopedSince

section Activities

variable {s₀ : Store} {self self' : Recur}
  (hself : ∀ {α : Type} (c : Call α), CallsIn s₀.HasGlobal c →
    Coincides s₀.ScopedSince (self c) (self' c))
include hself

/-- What is composed of operations and calls that register macros in global frames only. -/
theorem ComposedOf.coincides_scoped {m : Recur → Run α} (hm : ComposedIn s₀.HasGlobal m) :
    Coincides s₀.ScopedSince (m self) (m self') :=
  hm.coincides (fun hf _ hs => hs.operatesIn hf) hself

/-- The programs of subscribers read texts in global frames. -/
theorem deliver_coincides (channel i : Nat) (content : String) :
    Coincides s₀.ScopedSince (Run.deliver self channel i content)
      (Run.deliver self' channel i content) := by
  have hbusy : ∀ busy, Coincides s₀.ScopedSince (Run.change fun s => s.setBusy channel i busy)
      (Run.change fun s => s.setBusy channel i busy) :=
    fun busy s hs => ⟨rfl, hs.setBusy channel i busy⟩
  refine Coincides.bind_read (fun _ _ => rfl) fun s hs => ?_
  rcases hx : s.idleSubscriber? channel i with - | x
  · exact fun t ht => ⟨rfl, ht⟩
  · have hreads := hs.macrosIn.hosting.react_of_idle hx content
    have hprogram := (ComposedOf.program hreads).coincides_scoped hself
    exact (hbusy true).bind fun _ => hprogram.observe.bind fun _ => hbusy false

theorem emit_coincides (channel : Nat) (content : String) :
    Coincides s₀.ScopedSince (Run.emit self channel content) (Run.emit self' channel content) := by
  refine Coincides.bind_read (fun _ _ => rfl) fun s _ => ?_
  induction List.range (s.subscriberCount channel) with
  | nil => exact fun t ht => ⟨rfl, ht⟩
  | cons i is ih => exact (deliver_coincides hself channel i content).bind fun _ => ih

/-- A form is read from a port in the global frame of the caller. -/
theorem next_coincides (hs : s₀.ScopedSince s) (hsound : s.Sound) (k : Nat) (marker : Symbol)
    (v : Value) {env : FrameId} (henv : env < s.frames.size) :
    Run.Port.next self' k marker v env s = Run.Port.next self k marker v env s ∧
      s₀.ScopedSince (Run.Port.next self k marker v env s).2 := by
  rcases hv : v.index? with - | port
  · have hrefused : ∀ self, Run.Port.next self k marker v env s =
        (.error (.fault (.refused "sys:read" [v])), s) :=
      fun self => Run.bind_apply_error (Run.Port.take_of_not_index _ hv)
    rw [hrefused, hrefused]
    exact ⟨rfl, hs⟩
  rcases hsource : (s.portTable k).source? port with - | source
  · have hclosed : ∀ self, Run.Port.next self k marker v env s =
        (.error (.fault (.notOpen "sys:read" port)), s) :=
      fun self => Run.bind_apply_error (Run.Port.take_of_closed _ hv hsource)
    rw [hclosed, hclosed]
    exact ⟨rfl, hs⟩
  rw [Run.Port.next_of_open hv hsource, Run.Port.next_of_open hv hsource]
  split
  · exact ⟨rfl, hs.of_same rfl rfl rfl⟩
  · have hheld : s₀.ScopedSince (s.holding k port) := hs.of_same rfl rfl rfl
    -- the form is read in the global frame of the caller, which the store had from the start
    have hform : ComposedIn s₀.HasGlobal fun self =>
        self.form .code (s.global env) source.skip :=
      ComposedOf.nextForm .code (hs.hasGlobal_global hsound henv) source.skip
    obtain ⟨heq, hkept⟩ := hform.coincides_scoped hself _ hheld
    rw [heq]
    rcases hread : self.form .code (s.global env) source.skip (s.holding k port) with
      ⟨e | ⟨form, rest⟩, t⟩ <;> rw [hread] at hkept
    · exact ⟨rfl, hkept⟩
    · refine ⟨rfl, ?_⟩
      have hback : s₀.ScopedSince (t.returning k port rest) := hkept.of_same rfl rfl rfl
      cases form <;> exact hback

omit hself in
theorem openFile_scoped (hs : s₀.ScopedSince s) (k : Nat) (v : Value) :
    s₀.ScopedSince (Run.Port.openFile k v s).2 := by
  rw [Run.Port.openFile]
  rcases v.expectText "sys:open-file-for-input" with f | path
  · exact hs
  · have hpath : (liftM (Except.ok path : Except Fault String) : Run String) s = (.ok path, s) :=
      rfl
    rw [Run.bind_apply_ok hpath, Run.bind_apply, Run.update_apply, Store.readFile]
    rcases s.files.read path with e | content <;> exact hs.of_same rfl rfl rfl

omit hself in
theorem close_scoped (hs : s₀.ScopedSince s) (k : Nat) (v : Value) :
    s₀.ScopedSince (Run.Port.close k v s).2 := by
  rw [Run.Port.close]
  rcases hv : v.index? with - | port
  · rw [Run.bind_apply_error (Run.Port.take_of_not_index _ hv)]
    exact hs
  rcases hsource : (s.portTable k).source? port with - | source
  · rw [Run.bind_apply_error (Run.Port.take_of_closed _ hv hsource)]
    exact hs
  · rw [Run.bind_apply_ok (Run.Port.take_of_open _ hv hsource)]
    exact hs.of_same rfl rfl rfl

omit hself in
/-- There are no functions of the host. -/
theorem primitive_host (hs : s₀.ScopedSince s) (rounds : Nat) (name : String) (index : Nat)
    (args : List Value) (env : FrameId) :
    Run.primitive self rounds name (.host index) args env s = (.ok .nil, s) := by
  have hnone : s.countCall index = (none, s) := by
    rcases hf : s.hosts[index]? with - | ⟨f, n⟩
    · rw [Store.countCall, hf]
    · exact (hs.macrosIn.hosting.functions hf).elim
  rw [Run.primitive, Run.bind_apply, Run.update_apply, hnone]
  rfl

/-- No primitive registers macros elsewhere, in whatever frame it is called. -/
theorem primitive_coincides (hs : s₀.ScopedSince s) (hsound : s.Sound) (rounds : Nat)
    (name : String) (p : Primitive) (args : List Value) {env : FrameId}
    (henv : env < s.frames.size) :
    Run.primitive self' rounds name p args env s = Run.primitive self rounds name p args env s ∧
      s₀.ScopedSince (Run.primitive self rounds name p args env s).2 := by
  cases hp : p.isCore with
  | true => exact (ComposedOf.primitive rounds name hp args env).coincides_scoped hself s hs
  | false =>
    -- the ports take and give back a text and change no frame, and no host is registered
    cases p with
    | openPort k =>
      match args with
      | [v] => exact ⟨rfl, openFile_scoped hs k v⟩
      | [] | _ :: _ :: _ => exact ⟨rfl, hs⟩
    | readPort k marker =>
      match args with
      | [v] => exact next_coincides hself hs hsound k marker v henv
      | [] | _ :: _ :: _ => exact ⟨rfl, hs⟩
    | closePort k =>
      match args with
      | [v] => exact ⟨rfl, close_scoped hs k v⟩
      | [] | _ :: _ :: _ => exact ⟨rfl, hs⟩
    | host index =>
      rw [primitive_host hs, primitive_host hs]
      exact ⟨rfl, hs⟩
    | _ => cases hp

theorem perform_coincides {I : Invariant} (hs : s₀.ScopedSince s) (hsound : s.Sound) (rounds : Nat)
    {c : Call α} (hc : CallsIn s₀.HasGlobal c) (hin : c.InUse I s) :
    perform self' rounds c s = perform self rounds c s ∧
      s₀.ScopedSince (perform self rounds c s).2 := by
  cases c with
  | eval form env => exact (ComposedOf.evaluation rounds form env).coincides_scoped hself s hs
  | expand form env => exact (ComposedOf.wholly rounds form env).coincides_scoped hself s hs
  | parse token mode env source =>
    exact (ComposedOf.reading token mode hc source).coincides_scoped hself s hs
  | emit channel content => exact emit_coincides hself channel content s hs
  | apply f args env =>
    cases f with
    | closure c => exact (ComposedOf.callClosure c.index args).coincides_scoped hself s hs
    | native n =>
      show Run.apply self' rounds (.native n) args env s =
          Run.apply self rounds (.native n) args env s ∧
        s₀.ScopedSince (Run.apply self rounds (.native n) args env s).2
      -- a wrong number of arguments is refused before the body is looked at
      cases hcheck : n.arity.check n.name args.length with
      | ok _ =>
        rw [Run.apply_native hcheck, Run.apply_native hcheck]
        exact primitive_coincides hself hs hsound rounds n.name n.body args (I.inRange hin.2.2)
      | error f =>
        rw [Run.apply_refused hcheck, Run.apply_refused hcheck]
        exact ⟨rfl, hs⟩

end Activities

/-! ### Runs -/

/-- The invariant of the heap that is needed here: it is sound, and all of it is in use. -/
abbrev soundness (s₀ : Store) : Invariant := constancy (fun _ => False) s₀

/-- A store in which macros are registered in global frames only, and which can be run in. -/
structure Store.Scoped (s : Store) : Prop where
  macrosIn : s.MacrosIn s.HasGlobal
  holds : (soundness s).Holds s

theorem Store.Scoped.since (h : s.Scoped) : s.ScopedSince s := ⟨.refl s, id, h.macrosIn⟩

theorem Store.ScopedSince.toScoped {s₀ : Store} (h : s₀.ScopedSince s)
    (hs : (soundness s₀).Holds s) : s.Scoped :=
  ⟨h.macrosIn.toGlobal, hs.rebase _⟩

/-- A call that registers macros in global frames only, where this is as it should be. -/
def Call.Fits (s₀ : Store) ⦃α : Type⦄ (c : Call α) (s : Store) : Prop :=
  CallsIn s₀.HasGlobal c ∧ c.Allowed (soundness s₀) s ∧ s₀.ScopedSince s

open Classical in
/-- Gives up at all calls in stores without a property. -/
noncomputable def StopRule.outside (J : Store → Prop) : StopRule := fun _ _ s =>
  if J s then none else some .unfinished

section Runs

variable {s₀ : Store} {self : Recur}

theorem guarded_coincides
    (hself : ∀ {α : Type} (c : Call α) (t : Store), c.Fits s₀ t → s₀.ScopedSince (self c t).2)
    {c : Call α} (hc : CallsIn s₀.HasGlobal c) :
    Coincides s₀.ScopedSince (self.guarded (Call.Fits s₀) c)
      (self.guarded (Call.Allowed (soundness s₀)) c) := by
  intro t ht
  by_cases h : c.Allowed (soundness s₀) t
  · have hfits : c.Fits s₀ t := ⟨hc, h, ht⟩
    rw [Recur.guarded_of hfits, Recur.guarded_of h]
    exact ⟨rfl, hself c t hfits⟩
  · have hfits : ¬ c.Fits s₀ t := fun hf => h hf.2.1
    rw [Recur.guarded_of_not hfits, Recur.guarded_of_not h]
    exact ⟨rfl, ht⟩

/-- An activity that fits makes only calls that fit. -/
theorem perform_guarded (hkeeps : RecurKeeps (soundness s₀) self)
    (hself : ∀ {α : Type} (c : Call α) (t : Store), c.Fits s₀ t → s₀.ScopedSince (self c t).2)
    (rounds : Nat) {c : Call α} (hc : c.Fits s₀ s) :
    perform (self.guarded (Call.Fits s₀)) rounds c s = perform self rounds c s ∧
      s₀.ScopedSince (perform self rounds c s).2 := by
  obtain ⟨hin, ⟨hused, hholds⟩, hs⟩ := hc
  have hallowed : perform (self.guarded (Call.Allowed (soundness s₀))) rounds c s =
      perform self rounds c s :=
    (perform_composed_or_marks rounds c).guarded
      (fun self hkeeps => perform_keeps hkeeps rounds c s hused) hkeeps hholds
  obtain ⟨heq, hkept⟩ := perform_coincides (fun c hc => guarded_coincides hself hc) hs
    hholds.heap.sound rounds hin hused
  rw [hallowed] at heq
  exact ⟨heq.symm, heq ▸ hkept⟩

/-- Runs that are stopped keep invariants of the heap. -/
theorem runStopping_keeps {I : Invariant} (rule : StopRule) (rounds calls : Nat) :
    RecurKeeps I (runStopping rule rounds calls) := by
  induction calls with
  | zero => exact fun _ _ _ => Keeps.throw _
  | succ calls ih =>
    intro α c s hc hs
    cases hrule : rule c s with
    | some e =>
      rw [runStopping_of_some hrule]
      exact (Keeps.throw e : I.Keeps s (throw e) _) hs
    | none =>
      rw [runStopping_of_none hrule]
      exact nested_keeps c (fun t ht => perform_keeps ih rounds c t (Call.InUse.mono c hc ht)) hs

theorem Call.Fits.of_sameHeap {c : Call α} (hc : c.Fits s₀ s) (h : s.SameHeap t)
    (hhosts : t.hosts = s.hosts) (hchannels : t.channels = s.channels) : c.Fits s₀ t :=
  ⟨hc.1, hc.2.1.of_sameHeap h hhosts hchannels, hc.2.2.of_same h.frames hhosts hchannels⟩

/-- Wherever a call is made on the way, macros are registered in global frames only. -/
theorem run_coincides (rounds calls : Nat) (c : Call α) :
    Coincides (c.Fits s₀) (run rounds calls c)
      (runStopping (.outside Store.Scoped) rounds calls c) := by
  induction calls generalizing α with
  | zero => exact fun s hs => ⟨rfl, hs⟩
  | succ calls ih =>
    intro s hs
    have hscoped : s.Scoped := hs.2.2.toScoped hs.2.1.2
    have hrule : StopRule.outside Store.Scoped c s = none := if_pos hscoped
    rw [runStopping_of_none hrule]
    refine Coincides.nested c (fun s hs => ?_)
      (fun s env hs => hs.of_sameHeap (.deepen s env) rfl rfl)
      (fun s realm hs => hs.of_sameHeap (.riseIn s realm) rfl rfl) s hs
    -- below this call the rule stops nothing either, so it may be left out
    have hsame : (runStopping (.outside Store.Scoped) rounds calls).guarded (Call.Fits s₀) =
        (run rounds calls).guarded (Call.Fits s₀) :=
      Recur.guarded_congr fun c t hc => (ih c t hc).1
    obtain ⟨heq, hkept⟩ := perform_guarded (run_keeps rounds calls)
      (fun c t hc => (ih c t hc).2.2.2) rounds hs
    obtain ⟨heq', -⟩ := perform_guarded (runStopping_keeps (.outside Store.Scoped) rounds calls)
      (fun c t hc => by rw [(ih c t hc).1]; exact (ih c t hc).2.2.2) rounds hs
    rw [hsame] at heq'
    have hheld := perform_keeps (run_keeps rounds calls) rounds c s hs.2.1.1 hs.2.1.2
    exact ⟨heq'.symm.trans heq, hs.1,
      ⟨Call.InUse.mono c hs.2.1.1 hheld.larger, hheld.holds⟩, hkept⟩

/-- A call in frames of the store, which reads texts in global frames only. -/
def Call.Standard (s : Store) : Call α → Prop
  | .eval _ env | .apply _ _ env | .expand _ env => env < s.frames.size
  | .parse _ _ global _ => s.HasGlobal global
  | .emit .. => True

theorem Call.Standard.fits {c : Call α} (hc : c.Standard s) (hs : s.Scoped) : c.Fits s s := by
  have hvalue : ∀ {env : FrameId} (v : Value), env < s.frames.size → (soundness s).InUse s v :=
    fun _ henv _ _ => Nat.zero_lt_of_lt henv
  refine ⟨?_, ⟨?_, hs.holds⟩, hs.since⟩
  · cases c with
    | parse token mode global source => exact hc
    | _ => trivial
  · cases c with
    | eval form env | expand form env => exact ⟨hvalue form hc, hc⟩
    | apply f args env => exact ⟨hvalue _ hc, fun v _ => hvalue v hc, hc⟩
    | parse token mode global source => exact (Store.hasGlobal_iff.mp hc).1
    | emit channel content => trivial

theorem run_scopedSince (rounds calls : Nat) (c : Call α) (hc : c.Fits s₀ s) :
    s₀.ScopedSince (run rounds calls c s).2 :=
  (run_coincides rounds calls c s hc).2.2.2

/-- What is composed of operations and calls that register macros in global frames only, and keeps
the invariant of the heap. -/
theorem ComposedOf.scopedSince {m : Recur → Run α} {Q : Store → α → Prop}
    (hm : ComposedIn s₀.HasGlobal m)
    (hkeeps : ∀ self, RecurKeeps (soundness s₀) self → (soundness s₀).Keeps s (m self) Q)
    (hs : s₀.ScopedSince s) (hholds : (soundness s₀).Holds s) (rounds calls : Nat) :
    s₀.ScopedSince (m (run rounds calls) s).2 := by
  rw [← hm.guarded hkeeps (run_keeps rounds calls) hholds]
  obtain ⟨heq, hkept⟩ := hm.coincides_scoped
    (fun c hc => guarded_coincides (fun c _ hc => run_scopedSince rounds calls c hc) hc) s hs
  exact heq ▸ hkept

end Runs

/-! ### Hosts that add no functions -/

/-- An operation adds no functions, and what it reads is read in global frames. -/
def Operation.Standard (s : Store) : Operation α → Prop
  | .evaluate e _ | .evaluateLines e _ | .readForm e _ | .defineExpander e _ _ =>
    s.HasGlobal e.global
  | .register .. => False
  | .subscribe _ react => ∀ content, (react content).ReadsIn s.HasGlobal
  | .program p => p.ReadsIn s.HasGlobal
  | _ => True

/-- The stores that come about from the empty one by such operations, whatever their outcomes. -/
inductive Store.Standing (files : FileTree) : Store → Prop
  | start : Standing files (.empty files)
  | step {t : Store} {α : Type} (h : Standing files t) (a : Allowance) (x : Operation α) :
      x.Admissible t → x.Standard t → Standing files (x.run a t).2

/-- What an engine is before its initial program is run. -/
theorem Engine.bare_eq_ok (config : Config) (s : Store) :
    ∃ e t, bare config s = (.ok e, t) ∧ t.HasGlobal e.global := by
  obtain ⟨e, t, hcreate, he, hshape, -⟩ :=
    create_eq_ok ⟨0, 0⟩ config.caseRule config.maxDepth s
  obtain ⟨e', u, hbare, hstart⟩ := Run.bind_eq_ok hcreate
  cases hstart
  refine ⟨e, t, hbare, (hshape.hasGlobal _).mpr (Store.hasGlobal_iff.mpr ?_)⟩
  have hsize : (s.addRealm config.caseRule config.maxDepth).2.frames.size = s.frames.size + 1 :=
    Array.size_push ..
  rw [he, hsize, Store.frame_addRealm, if_pos rfl]
  exact ⟨Nat.lt_succ_self _, rfl⟩

/-- The initial program is read in the global frame of its engine. -/
theorem Engine.start_scopedSince (a : Allowance) {e : Engine} (he : s.HasGlobal e.global)
    (hs : s.Scoped) (initFile : Option String) : s.ScopedSince (e.start a initFile s).2 := by
  cases initFile with
  | none => exact hs.since
  | some path =>
    rw [Engine.start, Run.bind_apply, Run.update_apply]
    dsimp only
    cases (s.fileExists path).1 with
    | false => exact hs.since.of_same rfl rfl rfl
    | true =>
      let t := ((s.fileExists path).2.readFile path).2
      have ht : s.ScopedSince t := hs.since.of_same rfl rfl rfl
      have hholds : (soundness s).Holds t :=
        hs.holds.of_hosting (.of_eq rfl rfl rfl) (hs.holds.hosting.of_same rfl rfl)
      rw [if_pos rfl, Run.bind_apply, Run.update_apply]
      dsimp only
      -- a file that cannot be read ends the start, one that can is evaluated in the engine
      cases ((s.fileExists path).2.readFile path).1 with
      | error f => exact ht
      | ok content =>
        have he' : e.global < t.frames.size := (Store.hasGlobal_iff.mp he).1
        have hkept : s.ScopedSince (e.evaluate a content t).2 :=
          (ComposedOf.evaluate he content.toList).scopedSince (s := t)
            (fun self hself => Keeps.evaluate (s := t) hself he' content.toList)
            ht hholds a.rounds a.calls
        dsimp only
        rw [Run.bind_apply, Run.observe_apply]
        rcases hr : e.evaluate a content t with ⟨(f | _) | v, u⟩ <;> rw [hr] at hkept <;>
          exact hkept

/-- The operations of a host keep macros where they are registered, if no functions are added. -/
theorem leads_macrosIn (P : FrameId → Prop) :
    Leads (Manages P fun _ => False) fun s t => s.MacrosIn P → t.MacrosIn P :=
  ⟨fun _ => id, fun h h' => h' ∘ h, fun hf _ => hf.macrosIn⟩

theorem Engine.create_macrosIn (a : Allowance) (config : Config) (hs : s.Scoped) :
    (create a config s).2.MacrosIn (create a config s).2.HasGlobal := by
  obtain ⟨e, t, hbare, he⟩ := bare_eq_ok config s
  -- the engine as it is before its init file runs
  have hmade : t.Scoped := by
    have hnothing : ∀ {β : Type} (c : Call β), CallsIn s.HasGlobal c → ∀ u : Store,
        u.MacrosIn s.HasGlobal → (run 0 0 c u).2.MacrosIn s.HasGlobal := fun _ _ _ => id
    have hmacros := (Managed.bare config).leads (leads_macrosIn s.HasGlobal) hnothing s hs.macrosIn
    rw [hbare] at hmacros
    have hholds := ((Operation.keeps_bare config).ok hs.holds hbare).1
    exact ⟨hmacros.toGlobal, hholds.rebase _⟩
  have hstarted := start_scopedSince a he hmade config.initFile
  rw [create, Run.bind_apply_ok hbare, Run.bind_apply]
  have hmacros := hstarted.macrosIn
  rcases hr : e.start a config.initFile t with ⟨f | _, u⟩ <;> rw [hr] at hmacros <;>
    exact hmacros.toGlobal

/-- Operations that add no functions leave macros registered in global frames only. -/
theorem Operation.run_scoped (a : Allowance) (x : Operation α) (hx : x.Admissible s)
    (hstandard : x.Standard s) (hs : s.Scoped) : (x.run a s).2.Scoped := by
  have hspares : x.Spares (fun _ => False) s := by
    cases x <;> first | exact id | trivial
  refine ⟨?_, (x.keeps a hx hspares hs.holds).holds.rebase _⟩
  -- what makes no calls needs no allowance
  have hmanaged : x.run a = x.run ⟨0, 0⟩ → x.StaysIn s.HasGlobal (fun _ => False) →
      (x.run a s).2.MacrosIn (x.run a s).2.HasGlobal := by
    intro hcalls hx
    rw [hcalls]
    have hkept := x.leads (a := ⟨0, 0⟩) (leads_macrosIn s.HasGlobal) (fun _ _ _ => id) hx s
      hs.macrosIn
    exact hkept.toGlobal
  have hactivity : ∀ {α : Type} {m : Recur → Run α} {Q : Store → α → Prop},
      ComposedIn s.HasGlobal m →
      (∀ self, RecurKeeps (soundness s) self → (soundness s).Keeps s (m self) Q) →
      (m a.run s).2.MacrosIn (m a.run s).2.HasGlobal := by
    intro α m Q hm hkeeps
    exact (hm.scopedSince hkeeps hs.since hs.holds a.rounds a.calls).macrosIn.toGlobal
  have hevaluate : ∀ {env : FrameId}, s.HasGlobal env → env < s.frames.size → ∀ source,
      (Run.evaluate a.run env source s).2.MacrosIn (Run.evaluate a.run env source s).2.HasGlobal :=
    fun henv hlt source =>
      hactivity (ComposedOf.evaluate henv source) fun _ h => Keeps.evaluate h hlt source
  -- an operation binds names, or it is an activity within the engine's own frames
  cases x with
  | create config => exact Engine.create_macrosIn a config hs
  | environment caseRule maxDepth => exact hmanaged rfl trivial
  | evaluate e content => exact hevaluate hstandard hx content.toList
  | evaluateLines e lines => exact hevaluate hstandard hx (Engine.prognText lines).toList
  | readForm e content =>
    refine hactivity (m := fun self => self.form .code e.global content.toList >>= fun p =>
      Run.ofExcept p.1) (Q := fun _ _ => True) ?_ fun self h => ?_
    · exact (ComposedOf.nextForm .code hstandard _).bind fun p => ComposedOf.ofExcept p.1
    · exact (Keeps.nextForm h hx .code _).bind fun _ _ _ _ => Keeps.ofExcept fun _ _ _ => trivial
  | setVariable e name v => exact hmanaged rfl trivial
  | setHostVariable e name y => exact hmanaged rfl trivial
  | getVariable e name => exact hmanaged rfl trivial
  | makeConstant e name => exact hmanaged rfl trivial
  | isConstant e name => exact hmanaged rfl trivial
  | defineExpander e name v => exact hmanaged rfl hstandard
  | register e name arity f => exact hstandard.elim
  | subscribe e react => exact hmanaged rfl hstandard
  | expand form env =>
    refine hactivity (m := fun self => self (.expand form env)) (.call _ trivial) fun self h =>
      h (.expand form env) s ⟨fun _ _ => Nat.zero_lt_of_lt hx, hx⟩
  | program p => exact hactivity (ComposedOf.program hstandard) fun _ h => Keeps.program h hx
  | drop e => exact hmanaged rfl trivial

/-- If a host adds no functions, macros are registered in global frames only. -/
theorem Store.Standing.toScoped {files : FileTree} (h : Store.Standing files s) : s.Scoped := by
  induction h with
  | start =>
    have hreachable : Store.Reachable files (.empty files) := .start
    refine ⟨⟨fun _ => id, fun hc => ?_, ⟨nofun, nofun⟩⟩, hreachable.holds _⟩
    rw [frame_of_le (Nat.zero_le _)] at hc
    cases hc
  | step _ a x hx hstandard ih => exact x.run_scoped a hx hstandard ih

end PocketLisp
