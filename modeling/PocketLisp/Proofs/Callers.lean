/-
PocketLisp/Proofs/Callers.lean

Functions do not see the frame of their caller.

A closure is called with the frame that it was made in.  A primitive gets the
frame of its caller, but uses no more of it than what all frames of one engine
have in common: the global frame, the realm, and the macros, which are
registered in global frames only.  It hands the frame on to the functions that
it calls, so two runs have to be compared, in which all these calls are made
from different frames (`Call.withCaller`).

Main result: calls of a function from two frames with the same global frame do
the same, in every store of an engine to which no functions of the host have
been added (`callers_unseen`).
-/
import PocketLisp.Proofs.Scoping

namespace PocketLisp

open Invariant

variable {α : Type} {s t s₀ : Store} {env₁ env₂ : FrameId}

/-! ### What frames have in common -/

namespace Store

/-- Two frames whose chains end with the same global frame. -/
structure SameGlobal (s : Store) (env₁ env₂ : FrameId) : Prop where
  lt₁ : env₁ < s.frames.size
  lt₂ : env₂ < s.frames.size
  global : s.global env₁ = s.global env₂

namespace SameGlobal

theorem realmOf (h : s.SameGlobal env₁ env₂) (hs : s.Sound) : s.realmOf env₁ = s.realmOf env₂ := by
  have hglobal : ∀ {env : FrameId}, env < s.frames.size →
      s.realmOf (s.global env) = s.realmOf env := by
    intro env henv
    obtain ⟨locals, hchain, -⟩ := hs.exists_locals henv
    refine hs.realm_chain _ ?_
    rw [hchain]
    exact List.mem_append_right _ List.mem_cons_self
  rw [← hglobal h.lt₁, ← hglobal h.lt₂, h.global]

theorem later (h : s₀.SameGlobal env₁ env₂) (hsound : s₀.Sound) (hs : s₀.Later s) :
    s.SameGlobal env₁ env₂ where
  lt₁ := Nat.lt_of_lt_of_le h.lt₁ hs.size
  lt₂ := Nat.lt_of_lt_of_le h.lt₂ hs.size
  global := by rw [hs.global_eq hsound h.lt₁, hs.global_eq hsound h.lt₂, h.global]

end SameGlobal

/-- Which macro a symbol names is known from the global frame alone. -/
theorem ScopedSince.expander?_eq (hs : s₀.ScopedSince s) (hsound : s₀.Sound) {env : FrameId}
    (henv : env < s₀.frames.size) (symbol : Symbol) :
    s.expander? env symbol = (s.frame (s₀.global env)).expanders.get? symbol := by
  obtain ⟨locals, hchain, -, hlocals⟩ := hsound.exists_locals henv
  have hnone : locals.findSome? (fun i => (s.frame i).expanders.get? symbol) = none := by
    refine List.findSome?_eq_none_iff.mpr fun i hi => ?_
    by_contra hsome
    obtain ⟨c, hc⟩ := Option.ne_none_iff_exists'.mp hsome
    exact hlocals i hi (hs.macrosIn.macros hc)
  rw [expander?, hs.later.chain_eq hsound henv, hchain, List.findSome?_append, hnone,
    Option.none_or, List.findSome?_singleton]

end Store

/-! ### Primitives -/

/-- The same call, but of a function from another frame. -/
def Call.withCaller (env₁ env₂ : FrameId) : Call α → Call α
  | .apply f args env => .apply f args (if env = env₁ then env₂ else env)
  | .eval form env => .eval form env
  | .expand form env => .expand form env
  | .parse token mode global source => .parse token mode global source
  | .emit channel content => .emit channel content

/-- Carries out calls of functions from one frame as calls from another. -/
def Recur.withCaller (self : Recur) (env₁ env₂ : FrameId) : Recur :=
  fun _ c => self (c.withCaller env₁ env₂)

theorem Recur.withCaller_apply (self : Recur) (env₁ env₂ : FrameId) (f : Function)
    (args : List Value) :
    self.withCaller env₁ env₂ (.apply f args env₁) = self (.apply f args env₂) := by
  simp only [Recur.withCaller, Call.withCaller, if_true]

theorem Run.unary_congr {f g : Value → Run Value} (h : ∀ v, f v s = g v s) (name : String)
    (args : List Value) : unary name args f s = unary name args g s := by
  rcases args with - | ⟨v, - | ⟨w, args⟩⟩
  · rfl
  · exact h v
  · rfl

/-- Reading from a port uses the global frame only. -/
theorem Run.Port.next_of_global (h : s.global env₁ = s.global env₂) (self : Recur) (k : Nat)
    (marker : Symbol) (v : Value) :
    next self k marker v env₁ s = next self k marker v env₂ s := by
  rcases hv : v.index? with - | port
  · have hrefused : take k "sys:read" v s = (.error (.fault (.refused "sys:read" [v])), s) :=
      take_of_not_index _ hv
    rw [next, next, Run.bind_apply_error hrefused, Run.bind_apply_error hrefused]
  rcases hsource : (s.portTable k).source? port with - | source
  · have hclosed := take_of_closed "sys:read" hv hsource
    rw [next, next, Run.bind_apply_error hclosed, Run.bind_apply_error hclosed]
  · rw [next_of_open hv hsource, next_of_open hv hsource, h]

section Primitives

variable {self : Recur}
  (hself : ∀ {α : Type} (c : Call α), CallsIn s₀.HasGlobal c →
    Coincides s₀.ScopedSince (self c) (self c))
  (hsound : s₀.Sound) (h : s₀.SameGlobal env₁ env₂)
include hsound h

theorem once?_callers (hs : s₀.ScopedSince s) (form : Value) :
    Run.Expansion.once? self form env₁ s = Run.Expansion.once? self form env₂ s := by
  cases form with
  | cons id head tail =>
    cases head with
    | symbol head =>
      have hexpander : s.expander? env₁ head = s.expander? env₂ head := by
        rw [hs.expander?_eq hsound h.lt₁, hs.expander?_eq hsound h.lt₂, h.global]
      rw [Run.Expansion.once?, Run.Expansion.once?, Run.bind_apply_ok (Run.read_apply _ s),
        Run.bind_apply_ok (Run.read_apply _ s), hexpander]
    | _ => rfl
  | _ => rfl

include hself

theorem head_callers (rounds : Nat) (hs : s₀.ScopedSince s) (form : Value) :
    Run.Expansion.head self env₁ rounds form s = Run.Expansion.head self env₂ rounds form s := by
  induction rounds generalizing s form with
  | zero => rfl
  | succ rounds ih =>
    have hkept := ((ComposedOf.once? form env₂).coincides_scoped hself s hs).2
    rw [Run.Expansion.head, Run.Expansion.head, Run.bind_apply, Run.bind_apply,
      once?_callers hsound h hs]
    rcases hr : Run.Expansion.once? self form env₂ s with ⟨e | (- | next), t⟩
    · rfl
    · rfl
    · rw [hr] at hkept
      exact ih hkept next

/-- A primitive does the same from both frames, if the functions that it calls do. -/
theorem primitive_callers (hs : s₀.ScopedSince s)
    (hcallers : ∀ f args, Coincides s₀.ScopedSince (self (.apply f args env₁))
      (self (.apply f args env₂)))
    (rounds : Nat) (name : String) (p : Primitive) (args : List Value) :
    Run.primitive self rounds name p args env₁ s =
      Run.primitive self rounds name p args env₂ s := by
  have hglobal := (h.later hsound hs.later).global
  -- functions that are called are called from the other frame
  have hrenamed : p.isCore = true → Run.primitive self rounds name p args env₁ s =
      Run.primitive (self.withCaller env₁ env₂) rounds name p args env₁ s := by
    intro hp
    refine ((ComposedOf.primitive rounds name hp args env₁).coincides_scoped ?_ s hs).1.symm
    intro α c hc
    cases c with
    | apply f args env =>
      by_cases henv : env = env₁
      · rw [henv, self.withCaller_apply]
        exact hcallers f args
      · have hsame : self.withCaller env₁ env₂ (.apply f args env) = self (.apply f args env) := by
          simp only [Recur.withCaller, Call.withCaller, if_neg henv]
        rw [hsame]
        exact hself _ hc
    | _ => exact hself _ hc
  -- only these primitives look at the frame from which they are called
  cases p with
  | map | filter | reduce | apply =>
    rw [hrenamed rfl]
    simp only [Run.primitive, Run.reduceElements, Recur.withCaller_apply]
  | gensym =>
    -- a symbol is made in the realm of the frame, which is that of its global frame
    have hrealm : s.realmOf env₁ = s.realmOf env₂ := by
      rw [hs.later.realmOf h.lt₁, hs.later.realmOf h.lt₂, h.realmOf hsound]
    have hsymbol : s.generateSymbol env₁ = s.generateSymbol env₂ := by
      simp only [Store.generateSymbol, Store.modifyRealm, Store.realm, hrealm]
    simp only [Run.primitive]
    rw [Run.bind_apply, Run.bind_apply, Run.update_apply, Run.update_apply, hsymbol]
  | eval =>
    -- evaluated and expanded is in the global frame
    refine Run.unary_congr (fun v => ?_) name args
    rw [Run.global, Run.global, Run.bind_apply_ok (Run.read_apply _ s),
      Run.bind_apply_ok (Run.read_apply _ s), hglobal]
  | expandOnce =>
    refine Run.unary_congr (fun v => ?_) name args
    rw [Run.bind_apply, Run.bind_apply, once?_callers hsound h hs]
  | expandHead =>
    exact Run.unary_congr (fun v => head_callers hself hsound h rounds hs v) name args
  | readPort k marker =>
    exact Run.unary_congr (fun v => Run.Port.next_of_global hglobal self k marker v) name args
  | host index => rw [primitive_host hs, primitive_host hs]
  | _ => rfl

end Primitives

/-! ### Runs -/

/-- Where a call of a function fits, it fits from the other frame. -/
theorem Store.SameGlobal.fits (h : s₀.SameGlobal env₁ env₂) (f : Function) (args : List Value) :
    (Call.apply f args env₁).Fits s₀ s ↔ (Call.apply f args env₂).Fits s₀ s := by
  constructor
  · rintro ⟨-, ⟨⟨hf, hargs, -⟩, hholds⟩, hs⟩
    exact ⟨trivial, ⟨⟨hf, hargs, Nat.lt_of_lt_of_le h.lt₂ hs.later.size⟩, hholds⟩, hs⟩
  · rintro ⟨-, ⟨⟨hf, hargs, -⟩, hholds⟩, hs⟩
    exact ⟨trivial, ⟨⟨hf, hargs, Nat.lt_of_lt_of_le h.lt₁ hs.later.size⟩, hholds⟩, hs⟩

/-- What does not fit is not called, so the comparison of the calls that fit is one of all calls. -/
theorem guarded_callers {self : Recur} (h : s₀.SameGlobal env₁ env₂)
    (hkept : ∀ {α : Type} (c : Call α) (t : Store), c.Fits s₀ t → s₀.ScopedSince (self c t).2)
    {f : Function} {args : List Value}
    (hsame : ∀ t, (Call.apply f args env₁).Fits s₀ t →
      self (.apply f args env₁) t = self (.apply f args env₂) t) :
    Coincides s₀.ScopedSince (self.guarded (Call.Fits s₀) (.apply f args env₁))
      (self.guarded (Call.Fits s₀) (.apply f args env₂)) := by
  intro t ht
  refine ⟨?_, (guarded_coincides hkept (c := .apply f args env₁) trivial t ht).2⟩
  by_cases hfits : (Call.apply f args env₁).Fits s₀ t
  · rw [Recur.guarded_of hfits, Recur.guarded_of ((h.fits f args).mp hfits), hsame t hfits]
  · rw [Recur.guarded_of_not hfits,
      Recur.guarded_of_not fun hfits' => hfits ((h.fits f args).mpr hfits')]

/-- Calls of a function from two frames with the same global frame do the same. -/
theorem run_callers (hsound : s₀.Sound) (h : s₀.SameGlobal env₁ env₂) (rounds calls : Nat)
    (f : Function) (args : List Value) (hc : (Call.apply f args env₁).Fits s₀ s) :
    run rounds calls (.apply f args env₁) s = run rounds calls (.apply f args env₂) s := by
  induction calls generalizing f args s with
  | zero => rfl
  | succ calls ih =>
    -- a closure is called in its own frame
    cases f with
    | closure c => rfl
    | native n =>
      have hkept : ∀ {β : Type} (c : Call β) (t : Store), c.Fits s₀ t →
          s₀.ScopedSince (run rounds calls c t).2 :=
        fun c t hc => run_scopedSince rounds calls c hc
      -- within the body all calls are standard, so they may be made by the guarded interpreter
      have hguarded : ∀ env, (Call.apply (.native n) args env).Fits s₀ s →
          run rounds (calls + 1) (.apply (.native n) args env) s =
            Run.apply ((run rounds calls).guarded (Call.Fits s₀)) rounds (.native n) args env
              s := by
        intro env hc
        obtain ⟨hsame, -⟩ := perform_guarded (run_keeps rounds calls) hkept rounds hc
        exact hsame.symm
      rw [hguarded env₁ hc, hguarded env₂ ((h.fits _ _).mp hc)]
      cases hcheck : n.arity.check n.name args.length with
      | ok _ =>
        rw [Run.apply_native hcheck, Run.apply_native hcheck]
        exact primitive_callers
          (fun c hc t ht => ⟨rfl, (guarded_coincides hkept hc t ht).2⟩) hsound h hc.2.2
          (fun f args => guarded_callers h hkept fun t hc => ih f args hc) rounds n.name n.body args
      | error f => rw [Run.apply_refused hcheck, Run.apply_refused hcheck]

/-! ### The main result -/

/-- If the only functions of an engine that are not written in the language are the standard
primitives, macros are registered in global frames only, in all stores that a host comes to and at
every call on the way.  Then calls of a function from two frames with the same global frame have the
same outcome and leave the same store, to which belongs what has been printed. -/
theorem callers_unseen :
    (∀ files s, Store.Standing files s → s.Scoped) ∧
    ∀ s : Store, s.Scoped →
      (∀ (i : FrameId) (symbol : Symbol), ((s.frame i).expanders.get? symbol).isSome →
        s.HasGlobal i) ∧
      (∀ (rounds calls : Nat) {α : Type} (c : Call α), c.Standard s →
        runStopping (.outside Store.Scoped) rounds calls c s = run rounds calls c s ∧
        (run rounds calls c s).2.Scoped) ∧
      ∀ env₁ env₂, s.SameGlobal env₁ env₂ → ∀ (rounds calls : Nat) (f : Function)
        (args : List Value),
        run rounds calls (.apply f args env₁) s = run rounds calls (.apply f args env₂) s := by
  refine ⟨fun files s hs => hs.toScoped, fun s hs => ⟨?_, ?_, ?_⟩⟩
  · intro i symbol hsome
    obtain ⟨c, hc⟩ := Option.isSome_iff_exists.mp hsome
    exact hs.macrosIn.macros hc
  · intro rounds calls α c hc
    obtain ⟨hsame, -, ⟨-, hholds⟩, hkept⟩ := run_coincides rounds calls c s (hc.fits hs)
    exact ⟨hsame, hkept.toScoped hholds⟩
  · intro env₁ env₂ h rounds calls f args
    have hstandard : (Call.apply f args env₁).Standard s := h.lt₁
    exact run_callers hs.holds.heap.sound h rounds calls f args (hstandard.fits hs)

/-- A new engine. -/
def Store.withEngine : Store :=
  ((Operation.create ⟨.preserve, none, 8⟩).run ⟨0, 0⟩ (.empty .empty)).2

/-- An engine in which a function has captured a frame that binds `x`. -/
def Store.withCapture : Store :=
  ((Operation.evaluate ⟨0, 0⟩ "(define g ((lambda (x) (lambda () x)) 1))").run ⟨9, 9⟩
    .withEngine).2

/-- Called from a frame in which `x` is bound, `eval` does not find what it is bound to, as it does
not from the global frame. -/
theorem callers_unseen_of_eval :
    let s := Store.withCapture
    let x := (s.intern 0 "x").1
    let call (env : FrameId) : Call Value :=
      .apply (.native ⟨0, "eval", .exactly 1, .eval⟩) [.symbol x] env
    Store.Standing .empty s ∧ s.Scoped ∧ (call 1).Standard s ∧ s.SameGlobal 1 0 ∧
      s.valueOf 1 x = .ok (.number (Float.ofNat 1)) ∧
      runStopping (.outside Store.Scoped) 9 9 (call 1) s = run 9 9 (call 1) s ∧
      run 9 9 (call 1) s = run 9 9 (call 0) s ∧
      (run 9 9 (call 1) s).1 = .error (.fault (.undefinedSymbol "x")) := by
  intro s x call
  have hengine : Store.Standing .empty .withEngine :=
    .step .start ⟨0, 0⟩ (.create ⟨.preserve, none, 8⟩) trivial trivial
  obtain ⟨hlt₀, houter⟩ : 0 < Store.withEngine.frames.size ∧
      (Store.withEngine.frame 0).outer = none := by decide +kernel
  have hs : Store.Standing .empty s :=
    .step hengine ⟨9, 9⟩ (.evaluate ⟨0, 0⟩ _) hlt₀ (Store.hasGlobal_iff.mpr ⟨hlt₀, houter⟩)
  obtain ⟨hlt, hglobal, hvalue, hresult⟩ : 1 < s.frames.size ∧ s.global 1 = s.global 0 ∧
      s.valueOf 1 x = .ok (.number (Float.ofNat 1)) ∧
      (run 9 9 (call 1) s).1 = .error (.fault (.undefinedSymbol "x")) := by
    decide +kernel
  clear_value s
  obtain ⟨hscoped, hcallers⟩ := callers_unseen
  have hsame : s.SameGlobal 1 0 := ⟨hlt, Nat.zero_lt_of_lt hlt, hglobal⟩
  obtain ⟨-, hruns, heq⟩ := hcallers s (hscoped .empty s hs)
  exact ⟨hs, hscoped .empty s hs, hlt, hsame, hvalue, (hruns 9 9 (call 1) hlt).1,
    heq 1 0 hsame 9 9 _ _, hresult⟩

end PocketLisp
