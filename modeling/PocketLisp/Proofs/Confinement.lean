/-
PocketLisp/Proofs/Confinement.lean

Evaluation is confined to what it can reach.

A frame refers to the frame that it extends, and to the closures in the values
and the macros that it binds; a closure refers to the frame it was made in,
and to the closures that its body holds as values.  `Store.Reaches` follows
these links.  While a form is evaluated, what is in use is what was reachable
at the start and what has been made since (`confinement`), and only frames in
use are changed.

Main result: `eval_confined`.  The links through bodies are needed: a macro
can put a closure into the body of another one, and nothing else may refer to
it any more (`eval_reaches_into_bodies`).
-/
import PocketLisp.Proofs.Constants

namespace PocketLisp

open Invariant

/-- A frame or a closure. -/
inductive Node where
  | frame (i : Nat)
  | closure (c : Nat)
  deriving DecidableEq

/-- What the evaluation of a form in a frame starts from. -/
def Node.Starts (form : Value) (env : FrameId) : Node → Prop
  | .frame i => i = env
  | .closure c => c ∈ form.closures

namespace Bindings

variable {α : Type} {symbol : Symbol} {x : α} {p : Symbol × α} {bs : Bindings α}

theorem mem_of_get? (h : get? symbol bs = some x) : (symbol, x) ∈ bs := by
  induction bs with
  | nil => cases h
  | cons b rest ih =>
    rw [get?] at h
    split at h
    · next hb =>
      cases h
      exact hb ▸ List.mem_cons_self
    · exact List.mem_cons_of_mem _ (ih h)

/-- What is bound after a symbol has been bound. -/
theorem mem_put (h : p ∈ put symbol x bs) : p = (symbol, x) ∨ p ∈ bs := by
  induction bs with
  | nil => exact .inl (List.mem_singleton.mp h)
  | cons b rest ih =>
    rw [put] at h
    split at h
    · exact (List.mem_cons.mp h).imp id (List.mem_cons_of_mem _)
    · rcases List.mem_cons.mp h with rfl | h
      · exact .inr List.mem_cons_self
      · exact (ih h).imp id (List.mem_cons_of_mem _)

end Bindings

namespace Store

/-! ### Reachability -/

/-- The closures that a frame holds, in the values that it binds and as macros. -/
def held (s : Store) (i : Nat) : List Nat :=
  ((s.frame i).values.flatMap fun p => p.2.closures) ++ (s.frame i).expanders.map Prod.snd

/-- What a frame or a closure refers to.  Whether the closures that the body of a closure holds as
values count is left open. -/
def refers (bodies : Bool) (s : Store) : Node → List Node
  | .frame i => ((s.frame i).outer.map Node.frame).toList ++ (s.held i).map .closure
  | .closure c =>
    .frame (s.closure c).env ::
      if bodies then ((s.closure c).body.flatMap Value.closures).map .closure else []

/-- What can be reached from one of the starting points. -/
inductive Reaches (bodies : Bool) (s : Store) (start : Node → Prop) : Node → Prop
  | start {n} : start n → Reaches bodies s start n
  | link {n m} : Reaches bodies s start n → m ∈ s.refers bodies n → Reaches bodies s start m

section Links

variable {bodies : Bool} {s : Store} {start : Node → Prop} {i o c d : Nat} {n : Node} {v : Value}

theorem mem_held_of_bound? {symbol : Symbol} (hv : s.bound? symbol i = some v)
    (hc : c ∈ v.closures) : c ∈ s.held i :=
  List.mem_append.mpr (.inl (List.mem_flatMap.mpr ⟨_, Bindings.mem_of_get? hv, hc⟩))

theorem mem_held_of_expander {symbol : Symbol}
    (h : (s.frame i).expanders.get? symbol = some c) : c ∈ s.held i :=
  List.mem_append.mpr (.inr (List.mem_map.mpr ⟨_, Bindings.mem_of_get? h, rfl⟩))

theorem mem_refers_frame : n ∈ s.refers bodies (.frame i) ↔
    (∃ o, (s.frame i).outer = some o ∧ n = .frame o) ∨ ∃ c ∈ s.held i, n = .closure c := by
  rcases houter : (s.frame i).outer with - | o <;> simp [refers, houter, eq_comm]

theorem refers_outer (h : (s.frame i).outer = some o) : .frame o ∈ s.refers bodies (.frame i) :=
  mem_refers_frame.mpr (.inl ⟨o, h, rfl⟩)

theorem refers_held (h : c ∈ s.held i) : .closure c ∈ s.refers bodies (.frame i) :=
  mem_refers_frame.mpr (.inr ⟨c, h, rfl⟩)

theorem refers_env : .frame (s.closure c).env ∈ s.refers bodies (.closure c) := List.mem_cons_self

theorem refers_body (hv : v ∈ (s.closure c).body) (hd : d ∈ v.closures) :
    .closure d ∈ s.refers true (.closure c) :=
  List.mem_cons_of_mem _ (List.mem_map.mpr ⟨d, List.mem_flatMap.mpr ⟨v, hv, hd⟩, rfl⟩)

/-- A list that is closed under what its members refer to has all that can be reached. -/
theorem Reaches.mem_of_closed (nodes : List Node) (h : s.Reaches bodies start n)
    (hstart : ∀ m, start m → m ∈ nodes)
    (hclosed : ∀ m ∈ nodes, ∀ k ∈ s.refers bodies m, k ∈ nodes) : n ∈ nodes := by
  induction h with
  | start hm => exact hstart _ hm
  | link _ hl ih => exact hclosed _ ih _ hl

/-- What leaves a realm on its way has gone through a closure that a frame of the realm holds. -/
theorem Reaches.of_realm (hs : s.Sound) {g : Nat} (h : s.Reaches true (· = .frame g) n) :
    (∃ i, n = .frame i ∧ s.realmOf i = s.realmOf g) ∨
      ∃ j c, s.realmOf j = s.realmOf g ∧ c ∈ s.held j ∧
        s.Reaches true (· = .closure c) n := by
  induction h with
  | start hn => exact .inl ⟨g, hn, rfl⟩
  | link _ hl ih =>
    rcases ih with ⟨i, rfl, hi⟩ | ⟨j, c, hj, hc, hreach⟩
    · rcases mem_refers_frame.mp hl with ⟨o, houter, rfl⟩ | ⟨c, hc, rfl⟩
      · exact .inl ⟨o, rfl, (hs.realm houter).trans hi⟩
      · exact .inr ⟨i, c, hi, hc, .start rfl⟩
    · exact .inr ⟨j, c, hj, hc, hreach.link hl⟩

end Links

/-! ### What evaluation leaves alone -/

/-- A frame of the store that cannot be reached. -/
def Apart (s : Store) (start : Node → Prop) (i : Nat) : Prop :=
  i < s.frames.size ∧ ¬ s.Reaches true start (.frame i)

/-- A frame that is in use later on: all but those that could not be reached. -/
def FrameInUse (s : Store) (start : Node → Prop) (t : Store) (i : Nat) : Prop :=
  i < t.frames.size ∧ ¬ s.Apart start i

/-- A closure that is in use later on.  What is no closure counts as one of the first frame. -/
def ClosureInUse (s : Store) (start : Node → Prop) (t : Store) (c : Nat) : Prop :=
  ¬ (c < s.closures.size ∧ ¬ s.Reaches true start (.closure c)) ∧
    (c < t.closures.size ∨ s.FrameInUse start t 0)

/-- A later store, in which the frames that could not be reached are as they were, and what is in
use refers to nothing but what is in use. -/
structure Confined (s : Store) (start : Node → Prop) (t : Store) : Prop where
  sound : t.Sound
  larger : s.Larger t
  untouched : ∀ {i}, s.Apart start i → t.frames[i]? = s.frames[i]?
  outer : ∀ {i o}, s.FrameInUse start t i → (t.frame i).outer = some o → s.FrameInUse start t o
  held : ∀ {i c}, s.FrameInUse start t i → c ∈ t.held i → s.ClosureInUse start t c
  env : ∀ {c}, s.ClosureInUse start t c → s.FrameInUse start t (t.closure c).env
  body : ∀ {c v d}, s.ClosureInUse start t c → v ∈ (t.closure c).body → d ∈ v.closures →
    s.ClosureInUse start t d

variable {s t u : Store} {start : Node → Prop} {i c : Nat}

theorem FrameInUse.mono (h : s.FrameInUse start t i) (htu : t.Larger u) :
    s.FrameInUse start u i := ⟨Nat.lt_of_lt_of_le h.1 htu.frames, h.2⟩

theorem ClosureInUse.mono (h : s.ClosureInUse start t c) (htu : t.Larger u) :
    s.ClosureInUse start u c :=
  ⟨h.1, h.2.imp (fun hc => Nat.lt_of_lt_of_le hc htu.closures) fun h0 => h0.mono htu⟩

theorem closure_of_le (h : s.closures.size ≤ c) : s.closure c = default := by
  rw [closure, Array.getD_eq_getD_getElem?, Array.getElem?_eq_none h]
  rfl

/-- At the start, what is in use is what can be reached. -/
theorem frameInUse_self :
    s.FrameInUse start s i ↔ i < s.frames.size ∧ s.Reaches true start (.frame i) := by
  refine and_congr_right fun hi => ?_
  rw [Apart, not_and, Classical.not_not]
  exact ⟨fun h => h hi, fun h _ => h⟩

theorem Reaches.closureInUse (h : s.Reaches true start (.closure c))
    (hsize : 0 < s.frames.size) : s.ClosureInUse start s c := by
  refine ⟨fun hapart => hapart.2 h, ?_⟩
  by_cases hlt : c < s.closures.size
  · exact .inl hlt
  · -- a number that is no closure leads to the first frame
    have henv := h.link refers_env
    rw [closure_of_le (Nat.le_of_not_lt hlt)] at henv
    exact .inr (frameInUse_self.mpr ⟨hsize, henv⟩)

theorem Confined.refl (hs : s.Sound) (hsize : 0 < s.frames.size) : s.Confined start s := by
  have hreach : ∀ {c}, s.ClosureInUse start s c → c < s.closures.size →
      s.Reaches true start (.closure c) :=
    fun hc hlt => Classical.not_not.mp fun hn => hc.1 ⟨hlt, hn⟩
  -- in the store from which all starts, in use is what can be reached
  refine ⟨hs, .refl s, fun _ => rfl, fun {i o} hi ho => ?_, fun {i c} hi hc => ?_,
    fun {c} hc => ?_, fun {c v d} hc hv hd => ?_⟩
  · obtain ⟨hlt, hi⟩ := frameInUse_self.mp hi
    exact frameInUse_self.mpr ⟨Nat.lt_trans (hs.outer ho) hlt, hi.link (refers_outer ho)⟩
  · exact ((frameInUse_self.mp hi).2.link (refers_held hc)).closureInUse hsize
  · by_cases hlt : c < s.closures.size
    · exact frameInUse_self.mpr ⟨hs.env hlt, (hreach hc hlt).link refers_env⟩
    · rw [closure_of_le (Nat.le_of_not_lt hlt)]
      exact hc.2.resolve_left hlt
  · by_cases hlt : c < s.closures.size
    · exact ((hreach hc hlt).link (refers_body hv hd)).closureInUse hsize
    · rw [closure_of_le (Nat.le_of_not_lt hlt)] at hv
      cases hv

namespace Confined

/-- What a frame holds does not depend on other frames. -/
theorem held_congr (h : t.frame i = u.frame i) : t.held i = u.held i := by
  rw [Store.held, h, Store.held]

theorem sameHeap (h : s.Confined start t) (hu : t.SameHeap u) : s.Confined start u := by
  -- what is in use in one of the stores is in use in the other
  have hback : u.Larger t :=
    ⟨Nat.le_of_eq (congrArg Array.size hu.frames), Nat.le_of_eq (congrArg Array.size hu.closures)⟩
  refine ⟨h.sound.of_sameShape hu.sameShape, h.larger.trans hu.larger, fun hi => ?_,
    fun hi ho => ?_, fun hi hc => ?_, fun hc => ?_, fun hc hv hd => ?_⟩
  · rw [hu.frames]
    exact h.untouched hi
  · rw [hu.frame] at ho
    exact (h.outer (hi.mono hback) ho).mono hu.larger
  · rw [held_congr (hu.frame _)] at hc
    exact (h.held (hi.mono hback) hc).mono hu.larger
  · rw [hu.closure]
    exact (h.env (hc.mono hback)).mono hu.larger
  · rw [hu.closure] at hv
    exact (h.body (hc.mono hback) hv hd).mono hu.larger

/-- A frame that has been changed, where it is in use, and holds only what is in use. -/
theorem of_changed (h : s.Confined start t) (hshape : t.SameShape u)
    (hi : s.FrameInUse start t i) (hothers : ∀ {j}, j ≠ i → u.frames[j]? = t.frames[j]?)
    (hheld : ∀ {c}, c ∈ u.held i → s.ClosureInUse start t c) : s.Confined start u := by
  have hlarger : t.Larger u :=
    ⟨Nat.le_of_eq hshape.size.symm, Nat.le_of_eq (congrArg Array.size hshape.closures).symm⟩
  have hback : u.Larger t :=
    ⟨Nat.le_of_eq hshape.size, Nat.le_of_eq (congrArg Array.size hshape.closures)⟩
  have hclosure : ∀ c, u.closure c = t.closure c := fun c => by
    rw [Store.closure, hshape.closures, Store.closure]
  refine ⟨h.sound.of_sameShape hshape, h.larger.trans hlarger, fun {j} hj => ?_,
    fun {j o} hj ho => ?_, fun {j c} hj hc => ?_, fun hc => ?_, fun hc hv hd => ?_⟩
  -- the frame that has been changed is in use, so it is none of those apart
  · have hne : j ≠ i := fun heq => hi.2 (heq ▸ hj)
    rw [hothers hne, h.untouched hj]
  · rw [hshape.outer] at ho
    exact (h.outer (hj.mono hback) ho).mono hlarger
  · by_cases hne : j = i
    · exact (hheld (hne ▸ hc)).mono hlarger
    · have hframe : u.frame j = t.frame j := by
        rw [frame, Array.getD_eq_getD_getElem?, hothers hne, frame, Array.getD_eq_getD_getElem?]
      rw [held_congr hframe] at hc
      exact (h.held (hj.mono hback) hc).mono hlarger
  · rw [hclosure]
    exact (h.env (hc.mono hback)).mono hlarger
  · rw [hclosure] at hv
    exact (h.body (hc.mono hback) hv hd).mono hlarger

theorem bindAt (h : s.Confined start t) (hi : s.FrameInUse start t i) (symbol : Symbol)
    {v : Value} (hv : v.Over (s.ClosureInUse start t)) :
    s.Confined start (t.bindAt i symbol v) := by
  refine h.of_changed (sameShape_bindAt t i symbol v) hi (fun hj => ?_) fun {c} hc => ?_
  · exact (Array.getElem?_modify ..).trans (if_neg (Ne.symm hj))
  · rw [Store.held, frame_bindAt, if_pos ⟨rfl, hi.1⟩] at hc
    rcases List.mem_append.mp hc with hc | hc
    · obtain ⟨p, hp, hmem⟩ := List.mem_flatMap.mp hc
      rcases Bindings.mem_put hp with rfl | hp
      · exact hv c hmem
      · exact h.held hi (List.mem_append.mpr (.inl (List.mem_flatMap.mpr ⟨p, hp, hmem⟩)))
    · exact h.held hi (List.mem_append.mpr (.inr hc))

theorem bindExpander (h : s.Confined start t) (hi : s.FrameInUse start t i) (symbol : Symbol)
    {d : Nat} (hd : s.ClosureInUse start t d) :
    s.Confined start (t.bindExpander i symbol d) := by
  refine h.of_changed (sameShape_bindExpander t i symbol d) hi (fun hj => ?_) fun {c} hc => ?_
  · exact (Array.getElem?_modify ..).trans (if_neg (Ne.symm hj))
  · rw [Store.held, frame_bindExpander, if_pos ⟨rfl, hi.1⟩] at hc
    rcases List.mem_append.mp hc with hc | hc
    · exact h.held hi (List.mem_append.mpr (.inl hc))
    · obtain ⟨p, hp, rfl⟩ := List.mem_map.mp hc
      rcases Bindings.mem_put hp with rfl | hp
      · exact hd
      · exact h.held hi (List.mem_append.mpr (.inr (List.mem_map.mpr ⟨p, hp, rfl⟩)))

/-- A new frame extends a frame in use, and holds nothing. -/
theorem extend (h : s.Confined start t) (hi : s.FrameInUse start t i) :
    s.Confined start (t.extend i).2 ∧ s.FrameInUse start (t.extend i).2 t.frames.size := by
  have hlarger : t.Larger (t.extend i).2 :=
    ⟨by rw [size_extend]; exact Nat.le_succ _, Nat.le_refl _⟩
  have hnew : s.FrameInUse start (t.extend i).2 t.frames.size :=
    ⟨by rw [size_extend]; exact Nat.lt_succ_self _,
      fun hapart => Nat.not_lt_of_le h.larger.frames hapart.1⟩
  -- the new frame apart, nothing comes into use
  have hold : ∀ {j}, s.FrameInUse start (t.extend i).2 j → j ≠ t.frames.size →
      s.FrameInUse start t j := by
    intro j hj hne
    have hlt := hj.1
    rw [size_extend] at hlt
    exact ⟨by omega, hj.2⟩
  have hclosure : ∀ {c}, s.ClosureInUse start (t.extend i).2 c → s.ClosureInUse start t c := by
    intro c hc
    refine ⟨hc.1, hc.2.imp id fun h0 => ?_⟩
    exact ⟨Nat.lt_of_le_of_lt (Nat.zero_le _) hi.1, h0.2⟩
  refine ⟨⟨h.sound.extend hi.1, h.larger.trans hlarger, fun {j} hj => ?_,
    fun {j o} hj ho => ?_, fun {j c} hj hc => ?_, fun hc => ?_, fun hc hv hd => ?_⟩, hnew⟩
  · -- frames that are out of reach are the old ones
    have hlt := Nat.lt_of_lt_of_le hj.1 h.larger.frames
    rw [← h.untouched hj]
    exact (Array.getElem?_push ..).trans (if_neg (Nat.ne_of_lt hlt))
  · -- the new frame stands in one that is in use
    rw [frame_extend] at ho
    split at ho
    · cases ho
      exact hi.mono hlarger
    · next hne => exact (h.outer (hold hj hne) ho).mono hlarger
  · -- the new frame holds nothing yet
    by_cases hne : j = t.frames.size
    · rw [Store.held, frame_extend, if_pos hne] at hc
      cases hc
    · have hframe : (t.extend i).2.frame j = t.frame j := by rw [frame_extend, if_neg hne]
      rw [held_congr hframe] at hc
      exact (h.held (hold hj hne) hc).mono hlarger
  · exact (h.env (hclosure hc)).mono hlarger
  · exact (h.body (hclosure hc) hv hd).mono hlarger

/-- A new closure is made in a frame in use, of a body that holds only what is in use. -/
theorem addClosure (h : s.Confined start t) {x : Closure} (henv : s.FrameInUse start t x.env)
    (hbody : ∀ v ∈ x.body, v.Over (s.ClosureInUse start t)) :
    s.Confined start (t.addClosure x).2 ∧
      s.ClosureInUse start (t.addClosure x).2 t.closures.size := by
  have hlarger : t.Larger (t.addClosure x).2 :=
    ⟨Nat.le_refl _, by rw [size_addClosure]; exact Nat.le_succ _⟩
  have hnew : s.ClosureInUse start (t.addClosure x).2 t.closures.size :=
    ⟨fun hapart => Nat.not_lt_of_le h.larger.closures hapart.1,
      .inl (by rw [size_addClosure]; exact Nat.lt_succ_self _)⟩
  -- the new closure apart, nothing comes into use
  have hold : ∀ {c}, s.ClosureInUse start (t.addClosure x).2 c → c ≠ t.closures.size →
      s.ClosureInUse start t c := by
    intro c hc hne
    refine ⟨hc.1, hc.2.imp (fun hlt => ?_) id⟩
    rw [size_addClosure] at hlt
    omega
  refine ⟨⟨h.sound.addClosure henv.1, h.larger.trans hlarger, h.untouched, h.outer,
    fun {j c} hj hc => ?_, fun {c} hc => ?_, fun {c v d} hc hv hd => ?_⟩, hnew⟩
  · exact (h.held hj hc).mono hlarger
  · -- its frame is in use
    rw [closure_addClosure]
    split
    · exact henv
    · next hne => exact h.env (hold hc hne)
  · -- so is what its body holds
    rw [closure_addClosure] at hv
    split at hv
    · exact (hbody v hv d hd).mono hlarger
    · next hne => exact (h.body (hold hc hne) hv hd).mono hlarger

end Confined

end Store

/-! ### The main result -/

/-- Frames that could not be reached at the start are left alone.  Programs of the host name
nothing. -/
def confinement (s : Store) (start : Node → Prop) : Invariant where
  heap t := s.Confined start t
  frame t i := s.FrameInUse start t i
  closure t c := s.ClosureInUse start t c
  named _ := 0
  sound h := h.sound
  heap_of_same h hu := h.sameHeap hu
  inRange hi := hi.1
  frame_mono hi h := hi.mono h
  closure_mono hc h := hc.mono h
  named_mono _ := Nat.le_refl 0
  outer h hi ho := h.outer hi ho
  bound h hi hv _ hc := h.held hi (Store.mem_held_of_bound? hv hc)
  expander h hi hget := h.held hi (Store.mem_held_of_expander hget)
  env h hc := h.env hc
  body h hc hv _ hd := h.body hc hv hd
  named_frame _ hi := absurd hi (Nat.not_lt_zero _)
  named_closure _ hpos := absurd hpos (Nat.lt_irrefl 0)
  extend h hi := h.extend hi
  addClosure h henv hbody := h.addClosure henv hbody
  bindAt h hi _ hv := h.bindAt hi _ hv
  bindExpander h hi hc := h.bindExpander hi _ hc

/-- Nothing but the standard primitives: there are no functions of the host, and its subscribers do
not evaluate, call or bind anything. -/
def Store.Standard (s : Store) : Prop :=
  s.Hosting (fun _ => False) fun react => ∀ content, (react content).Within 0

theorem Store.Standard.holds {s : Store} {start : Node → Prop} (h : s.Standard)
    (hconfined : s.Confined start s) : (confinement s start).Holds s :=
  ⟨hconfined, h.mono (fun _ hf => hf.elim) fun _ hr => hr⟩

/-- Evaluation leaves alone what it cannot reach, however it ends. -/
theorem eval_confined (a : Allowance) {s : Store} (hs : s.Sound) (hstandard : s.Standard) :
    (∀ form env, env < s.frames.size → ∀ i < s.frames.size,
      ¬ s.Reaches true (Node.Starts form env) (.frame i) →
      (a.run (.eval form env) s).2.frames[i]? = s.frames[i]?) ∧
    ∀ (e : Engine) content, e.global < s.frames.size → ∀ i < s.frames.size,
      s.realmOf i ≠ s.realmOf e.global →
      (e.evaluate a content s).2.frames[i]? ≠ s.frames[i]? →
      ∃ j c, s.realmOf j = s.realmOf e.global ∧ c ∈ s.held j ∧
        s.Reaches true (· = .closure c) (.frame i) := by
  refine ⟨fun form env henv i hi hapart => ?_, fun e content he i hi hrealm hchanged => ?_⟩
  -- the invariant for what the form and its frame start from
  · have hheld : (confinement s (Node.Starts form env)).Holds s :=
      hstandard.holds (.refl hs (Nat.zero_lt_of_lt henv))
    have hself : RecurKeeps (confinement s (Node.Starts form env)) a.run :=
      run_keeps a.rounds a.calls
    have hform : (confinement s (Node.Starts form env)).InUse s form := by
      intro c hc
      have hreach : s.Reaches true (Node.Starts form env) (.closure c) := .start hc
      exact hreach.closureInUse (Nat.zero_lt_of_lt henv)
    have henv' : (confinement s (Node.Starts form env)).frame s env :=
      ⟨henv, fun hout => hout.2 (.start rfl)⟩
    exact (hself (.eval form env) s ⟨hform, henv'⟩ hheld).holds.heap.untouched ⟨hi, hapart⟩
  -- a text holds no closures, so here only the global frame is a start
  · have hheld : (confinement s (· = .frame e.global)).Holds s :=
      hstandard.holds (.refl hs (Nat.zero_lt_of_lt he))
    have hself : RecurKeeps (confinement s (· = .frame e.global)) a.run :=
      run_keeps a.rounds a.calls
    have he' : (confinement s (· = .frame e.global)).frame s e.global :=
      ⟨he, fun hout => hout.2 (.start rfl)⟩
    have hend := (Keeps.evaluate hself he' content.toList hheld).holds.heap
    have hreach : s.Reaches true (· = .frame e.global) (.frame i) :=
      Classical.not_not.mp fun hn => hchanged (hend.untouched ⟨hi, hn⟩)
    rcases hreach.of_realm hs with ⟨j, hj, hsame⟩ | hthrough
    · cases hj
      exact absurd hsame hrealm
    · exact hthrough

/-- Two realms; a definition in the second leaves the first alone. -/
theorem eval_confined_of_two :
    let s := ((((Store.empty .empty).addRealm .preserve 2).2).addRealm .preserve 2).2
    let y := (s.intern 1 "y").1
    let form : Value :=
      .cons 0 (.symbol (s.intern 1 "define").1) (.cons 1 (.symbol y) (.cons 2 .t .nil))
    let a : Allowance := ⟨9, 9⟩
    s.Sound ∧ s.Standard ∧ ¬ s.Reaches true (Node.Starts form 1) (.frame 0) ∧
      (a.run (.eval form 1) s).2.bound? y 1 = some .t ∧
      (a.run (.eval form 1) s).2.frames[0]? = s.frames[0]? := by
  intro s y form a
  have hs : s.Sound := by
    have hreached : Store.Reachable .empty s :=
      .step (.step .start a (.environment .preserve 2) trivial trivial) a (.environment .preserve 2)
        trivial trivial
    exact (hreached.holds fun _ => False).heap.sound
  have hstandard : s.Standard := ⟨nofun, nofun⟩
  -- from the second global frame only that frame is reached
  have hapart : ¬ s.Reaches true (Node.Starts form 1) (.frame 0) := by
    intro h
    have hmem := h.mem_of_closed [.frame 1] (fun m hm => ?_) (by decide)
    · exact absurd hmem (by decide)
    · cases m with
      | frame i => exact List.mem_singleton.mpr (congrArg _ hm)
      | closure c => cases hm
  exact ⟨hs, hstandard, hapart, by decide +kernel,
    (eval_confined a hs hstandard).1 form 1 (by decide) 0 (by decide) hapart⟩

/-! ### Closures in bodies -/

/-- Two realms, and a closure of the first that assigns `x` there and is bound in the second. -/
def Store.shared : Store :=
  let a : Allowance := ⟨20, 20⟩
  let s := ((Operation.environment .preserve 8).run a (.empty .empty)).2
  let s := ((Operation.environment .preserve 8).run a s).2
  let s := ((Operation.evaluate ⟨0, 0⟩ "(define x nil) (lambda () (setq x t))").run a s).2
  ((Operation.setVariable ⟨1, 0⟩ "s" (.function (.closure ⟨0, none⟩))).run a s).2

/-- A macro puts that closure into the body of a function, and nothing else in the second realm
refers to it any more. -/
def Store.entangled : Store :=
  ((Operation.evaluate ⟨1, 0⟩ "(defmacro m () s) (define g (lambda () ((m)))) (define s nil)").run
    ⟨20, 20⟩ .shared).2

theorem Store.reachable_entangled : Store.Reachable .empty .entangled := by
  let a : Allowance := ⟨20, 20⟩
  let s := ((Operation.environment .preserve 8).run a (.empty .empty)).2
  let s' := ((Operation.environment .preserve 8).run a s).2
  let t := ((Operation.evaluate ⟨0, 0⟩ "(define x nil) (lambda () (setq x t))").run a s').2
  have hsizes : 1 < s'.frames.size ∧ 1 < t.frames.size ∧ 1 < Store.shared.frames.size := by
    decide +kernel
  have hs' : Store.Reachable .empty s' :=
    .step (.step .start a (.environment .preserve 8) trivial trivial) a (.environment .preserve 8)
      trivial trivial
  have ht : Store.Reachable .empty t :=
    .step hs' a (.evaluate ⟨0, 0⟩ _) (Nat.zero_lt_of_lt hsizes.1) trivial
  have hshared : Store.Reachable .empty .shared :=
    .step ht a (.setVariable ⟨1, 0⟩ "s" _) hsizes.2.1 trivial
  exact .step hshared a (.evaluate ⟨1, 0⟩ _) hsizes.2.2 trivial

/-- If the values in the bodies of closures are left out, there is a store in which the call of a
function changes a frame that cannot be reached. -/
theorem eval_reaches_into_bodies :
    let s := Store.entangled
    let form : Value := .cons 0 (.symbol (s.intern 1 "g").1) .nil
    let x := (s.intern 0 "x").1
    let a : Allowance := ⟨20, 20⟩
    Store.Reachable .empty s ∧ s.Standard ∧ 1 < s.frames.size ∧
      ¬ s.Reaches false (Node.Starts form 1) (.frame 0) ∧
      s.bound? x 0 = some .nil ∧ (a.run (.eval form 1) s).2.bound? x 0 = some .t := by
  intro s form x a
  have hcomputed : s.hosts.size = 0 ∧ s.channels.size = 0 ∧ 1 < s.frames.size ∧
      (∀ m ∈ [Node.frame 1, .closure 1, .closure 2], ∀ k ∈ s.refers false m,
        k ∈ [Node.frame 1, .closure 1, .closure 2]) ∧
      s.bound? x 0 = some .nil ∧ (a.run (.eval form 1) s).2.bound? x 0 = some .t := by
    decide +kernel
  obtain ⟨hhosts, hchannels, hsize, hclosed, hbefore, hafter⟩ := hcomputed
  refine ⟨Store.reachable_entangled, ⟨fun {i f n} hf => ?_, fun {i j xs y} hxs => ?_⟩, hsize,
    fun h => ?_, hbefore, hafter⟩
  · rw [Array.getElem?_eq_none (by omega)] at hf
    cases hf
  · rw [Array.getElem?_eq_none (by omega)] at hxs
    cases hxs
  -- reached are the second global frame, its macro and its function, but not the closure inside
  · have hmem := h.mem_of_closed [.frame 1, .closure 1, .closure 2] (fun m hm => ?_) hclosed
    · exact absurd hmem (by decide)
    · cases m with
      | frame i => exact List.mem_cons.mpr (.inl (congrArg _ hm))
      | closure c => cases hm

end PocketLisp
