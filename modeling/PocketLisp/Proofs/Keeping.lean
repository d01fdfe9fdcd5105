/-
PocketLisp/Proofs/Keeping.lean

Invariants of the heap, and runs that keep them.

An `Invariant` says what holds of the frames and the closures of a store, and
which of them are in use.  What a frame or a closure in use refers to is in
use, and the four operations that change the heap keep the invariant when they
are given what is in use.

`I.Keeps s m Q` says of a run that, from the store `s`, it keeps the invariant
however it ends, and that `Q` holds of its result if it has one.  There is one
rule for every way to put runs together.
-/
import PocketLisp.Proofs.Heap
import PocketLisp.Proofs.Interning

namespace PocketLisp

variable {α β : Type}

namespace Store

/-! ### Stores that have got larger -/

/-- A store with at least as many frames and closures. -/
structure Larger (s t : Store) : Prop where
  frames : s.frames.size ≤ t.frames.size
  closures : s.closures.size ≤ t.closures.size

theorem Larger.refl (s : Store) : s.Larger s := ⟨Nat.le_refl _, Nat.le_refl _⟩

theorem Larger.trans {s t u : Store} (h : s.Larger t) (h' : t.Larger u) : s.Larger u :=
  ⟨Nat.le_trans h.frames h'.frames, Nat.le_trans h.closures h'.closures⟩

/-- The constants of the realm at a place. -/
def constantsAt (s : Store) (realm : Nat) : List Symbol := (s.realms.getD realm default).constants

/-- The names of the realm at a place. -/
def symbolsAt (s : Store) (realm : Nat) : SymbolTable := (s.realms.getD realm default).symbols

/-- Two stores with the same frames, closures and constants; the second may have more names. -/
structure SameHeap (s t : Store) : Prop where
  frames : t.frames = s.frames
  closures : t.closures = s.closures
  size : t.realms.size = s.realms.size
  constants : ∀ realm, t.constantsAt realm = s.constantsAt realm
  names : ∀ realm, (s.symbolsAt realm).Extends (t.symbolsAt realm)

namespace SameHeap

variable {s t : Store}

theorem refl (s : Store) : s.SameHeap s := ⟨rfl, rfl, rfl, fun _ => rfl, fun _ => .refl _⟩

/-- What is neither a frame nor a closure nor a realm has nothing to do with the heap. -/
theorem of_eq (hframes : t.frames = s.frames) (hclosures : t.closures = s.closures)
    (hrealms : t.realms = s.realms) : s.SameHeap t := by
  refine ⟨hframes, hclosures, congrArg Array.size hrealms, fun _ => ?_, fun _ => ?_⟩
  · rw [constantsAt, hrealms, constantsAt]
  · rw [symbolsAt, symbolsAt, hrealms]
    exact .refl _

theorem larger (h : s.SameHeap t) : s.Larger t :=
  ⟨Nat.le_of_eq (congrArg Array.size h.frames).symm,
    Nat.le_of_eq (congrArg Array.size h.closures).symm⟩

theorem frame (h : s.SameHeap t) (i : FrameId) : t.frame i = s.frame i := by
  rw [Store.frame, h.frames, Store.frame]

theorem closure (h : s.SameHeap t) (c : Nat) : t.closure c = s.closure c := by
  rw [Store.closure, h.closures, Store.closure]

theorem realmOf (h : s.SameHeap t) (i : FrameId) : t.realmOf i = s.realmOf i := by
  rw [Store.realmOf, h.frame, Store.realmOf]

theorem bound? (h : s.SameHeap t) (symbol : Symbol) (i : FrameId) :
    t.bound? symbol i = s.bound? symbol i := by
  rw [Store.bound?, h.frame, Store.bound?]

theorem sameShape (h : s.SameHeap t) : s.SameShape t :=
  ⟨congrArg Array.size h.frames, h.size, h.realmOf, fun i => congrArg Frame.outer (h.frame i),
    h.closures⟩

/-- A realm may change in anything but its constants, if no name is lost. -/
theorem modify_realms (s : Store) (realm : Nat) {change : Realm → Realm}
    (hconstants : ∀ r, (change r).constants = r.constants)
    (hnames : ∀ r, s.realms[realm]? = some r → r.symbols.Extends (change r).symbols) :
    s.SameHeap { s with realms := s.realms.modify realm change } := by
  refine ⟨rfl, rfl, Array.size_modify, fun i => ?_, fun i => ?_⟩
  · simp only [constantsAt, Array.getD_eq_getD_getElem?, Array.getElem?_modify]
    split
    · rcases s.realms[i]? with - | r <;> simp [hconstants]
    · rfl
  · simp only [symbolsAt, Array.getD_eq_getD_getElem?, Array.getElem?_modify]
    -- the changed realm, then the others
    split
    · next hi =>
      subst hi
      rcases hr : s.realms[realm]? with - | r
      · exact .refl _
      · exact hnames r hr
    · exact .refl _

theorem deepen (s : Store) (env : FrameId) : s.SameHeap (s.deepen env) :=
  modify_realms _ _ (fun _ => rfl) fun _ _ => .refl _

theorem riseIn (s : Store) (realm : Nat) : s.SameHeap (s.riseIn realm) :=
  modify_realms _ _ (fun _ => rfl) fun _ _ => .refl _

theorem symbols_eq {env : FrameId} {r : Realm} (hr : s.realms[s.realmOf env]? = some r) :
    (s.realm env).symbols = r.symbols := by
  rw [realm, Array.getD_eq_getD_getElem?, hr]
  rfl

theorem intern (s : Store) (env : FrameId) (name : String) :
    s.SameHeap (s.intern env name).2 :=
  modify_realms _ _ (fun _ => rfl) fun _ hr => symbols_eq hr ▸ SymbolTable.extends_intern _ _

theorem generateSymbol (s : Store) (env : FrameId) : s.SameHeap (s.generateSymbol env).2 :=
  modify_realms _ _ (fun _ => rfl) fun _ hr => symbols_eq hr ▸ SymbolTable.extends_generate _

end SameHeap

/-! ### What the host has added -/

/-- What holds of all functions of the host, and of all its subscribers. -/
structure Hosting (F : HostFunction → Prop) (R : (String → HostProgram) → Prop) (s : Store) :
    Prop where
  functions : ∀ {i : Nat} {f : HostFunction} {n : Nat}, s.hosts[i]? = some (f, n) → F f
  subscribers : ∀ {i j : Nat} {xs : Array Subscriber} {x : Subscriber},
    s.channels[i]? = some xs → xs[j]? = some x → R x.react

namespace Hosting

variable {F F' : HostFunction → Prop} {R R' : (String → HostProgram) → Prop} {s t : Store}

theorem mono (h : s.Hosting F R) (hF : ∀ f, F f → F' f) (hR : ∀ r, R r → R' r) :
    s.Hosting F' R' :=
  ⟨fun hf => hF _ (h.functions hf), fun hxs hx => hR _ (h.subscribers hxs hx)⟩

theorem of_same (h : s.Hosting F R) (hhosts : t.hosts = s.hosts)
    (hchannels : t.channels = s.channels) : t.Hosting F R where
  functions hf := h.functions (by rwa [hhosts] at hf)
  subscribers hxs hx := h.subscribers (by rwa [hchannels] at hxs) hx

theorem countCall (h : s.Hosting F R) (i : Nat) : (s.countCall i).2.Hosting F R := by
  rcases e : s.hosts[i]? with - | ⟨f, n⟩
  · simpa [Store.countCall, e] using h
  · refine ⟨fun {j} g m hg => ?_, fun hxs => ?_⟩
    · simp only [Store.countCall, e, Array.getElem?_modify] at hg
      split at hg
      · obtain ⟨⟨f', n'⟩, hf', heq⟩ := Option.map_eq_some_iff.mp hg
        simp only [Prod.mk.injEq] at heq
        rw [← heq.1]
        exact h.functions hf'
      · exact h.functions hg
    · exact h.subscribers (by simpa [Store.countCall, e] using hxs)

theorem function_of_countCall (h : s.Hosting F R) {i : Nat} {f : HostFunction} {n : Nat}
    (hf : (s.countCall i).1 = some (f, n)) : F f := by
  rcases e : s.hosts[i]? with - | ⟨g, m⟩
  · simp [Store.countCall, e] at hf
  · simp only [Store.countCall, e, Option.some.injEq, Prod.mk.injEq] at hf
    rw [← hf.1]
    exact h.functions e

theorem react_of_idle (h : s.Hosting F R) {channel i : Nat} {x : Subscriber}
    (hx : s.idleSubscriber? channel i = some x) : R x.react := by
  have hsome : (s.channels[channel]?.bind fun subscribers => subscribers[i]?) = some x :=
    Option.eq_some_of_filter_eq_some hx
  obtain ⟨xs, hxs, hx⟩ := Option.bind_eq_some_iff.mp hsome
  exact h.subscribers hxs hx

theorem addHost (h : s.Hosting F R) {f : HostFunction} (hf : F f) :
    (s.addHost f).2.Hosting F R := by
  refine ⟨fun {i} g n hg => ?_, h.subscribers⟩
  simp only [Store.addHost, Array.getElem?_push] at hg
  split at hg
  · cases hg
    exact hf
  · exact h.functions hg

theorem addChannel (h : s.Hosting F R) : s.addChannel.2.Hosting F R := by
  refine ⟨h.functions, fun {i j} xs x hxs hx => ?_⟩
  simp only [Store.addChannel, Array.getElem?_push] at hxs
  split at hxs
  · cases hxs
    cases hx
  · exact h.subscribers hxs hx

theorem setBusy (h : s.Hosting F R) (channel i : Nat) (busy : Bool) :
    (s.setBusy channel i busy).Hosting F R := by
  refine ⟨h.functions, fun {k j} xs x hxs hx => ?_⟩
  simp only [Store.setBusy, Array.getElem?_modify] at hxs
  split at hxs
  · obtain ⟨ys, hys, rfl⟩ := Option.map_eq_some_iff.mp hxs
    rw [Array.getElem?_modify] at hx
    split at hx
    · obtain ⟨y, hy, rfl⟩ := Option.map_eq_some_iff.mp hx
      have hreact := h.subscribers hys hy
      exact hreact
    · exact h.subscribers hys hx
  · exact h.subscribers hxs hx

theorem subscribe (h : s.Hosting F R) (channel : Nat) {react : String → HostProgram}
    (hreact : R react) : (s.subscribe channel react).Hosting F R := by
  refine ⟨h.functions, fun {k j} xs x hxs hx => ?_⟩
  simp only [Store.subscribe, Array.getElem?_modify] at hxs
  split at hxs
  · obtain ⟨ys, hys, rfl⟩ := Option.map_eq_some_iff.mp hxs
    rw [Array.getElem?_push] at hx
    split at hx
    · cases hx
      exact hreact
    · exact h.subscribers hys hx
  · exact h.subscribers hxs hx

end Hosting

end Store

/-! ### Programs of the host -/

/-- A program of the host that names no frames but the first `n`, where it defines, evaluates or
calls something. -/
inductive HostProgram.Within (n : Nat) : HostProgram → Prop
  | done (v : Value) : Within n (.done v)
  | fail (f : Fault) : Within n (.fail f)
  | list {items next} : (∀ v, Within n (next v)) → Within n (.list items next)
  | text {content next} : (∀ v, Within n (next v)) → Within n (.text content next)
  | isGlobal {env next} : (∀ b, Within n (next b)) → Within n (.isGlobal env next)
  | boundSymbols {env next} : (∀ l, Within n (next l)) → Within n (.boundSymbols env next)
  | define {env s v next} : env < n → (∀ r, Within n (next r)) → Within n (.define env s v next)
  | eval {form env next} : env < n → (∀ r, Within n (next r)) → Within n (.eval form env next)
  | apply {f args env next} :
      env < n → (∀ r, Within n (next r)) → Within n (.apply f args env next)
  | evaluate {global content next} :
      global < n → (∀ r, Within n (next r)) → Within n (.evaluate global content next)
  | emit {channel content next} : Within n next → Within n (.emit channel content next)
  | subscribe {channel react next} :
      (∀ content, Within n (react content)) → Within n next →
        Within n (.subscribe channel react next)
  | note {line next} : Within n next → Within n (.note line next)

theorem HostProgram.Within.mono {n m : Nat} {p : HostProgram} (h : p.Within n) (hnm : n ≤ m) :
    p.Within m := by
  induction h with
  | done v => exact .done v
  | fail f => exact .fail f
  | list _ ih => exact .list ih
  | text _ ih => exact .text ih
  | isGlobal _ ih => exact .isGlobal ih
  | boundSymbols _ ih => exact .boundSymbols ih
  | define henv _ ih => exact .define (Nat.lt_of_lt_of_le henv hnm) ih
  | eval henv _ ih => exact .eval (Nat.lt_of_lt_of_le henv hnm) ih
  | apply henv _ ih => exact .apply (Nat.lt_of_lt_of_le henv hnm) ih
  | evaluate henv _ ih => exact .evaluate (Nat.lt_of_lt_of_le henv hnm) ih
  | emit _ ih => exact .emit ih
  | subscribe _ _ ihreact ih => exact .subscribe ihreact ih
  | note _ ih => exact .note ih

/-! ### Invariants -/

/-- What holds of a heap, and which of its frames and closures are in use. -/
structure Invariant where
  heap : Store → Prop
  frame : Store → Nat → Prop
  closure : Store → Nat → Prop
  /-- programs of the host may name the frames below this number -/
  named : Store → Nat
  sound : ∀ {s}, heap s → s.Sound
  heap_of_same : ∀ {s t}, heap s → s.SameHeap t → heap t
  inRange : ∀ {s i}, frame s i → i < s.frames.size
  frame_mono : ∀ {s t i}, frame s i → s.Larger t → frame t i
  closure_mono : ∀ {s t c}, closure s c → s.Larger t → closure t c
  named_mono : ∀ {s t}, s.Larger t → named s ≤ named t
  /-- what a frame in use refers to is in use -/
  outer : ∀ {s i o}, heap s → frame s i → (s.frame i).outer = some o → frame s o
  bound : ∀ {s i symbol v}, heap s → frame s i → s.bound? symbol i = some v → v.Over (closure s)
  expander : ∀ {s i symbol c}, heap s → frame s i →
    (s.frame i).expanders.get? symbol = some c → closure s c
  /-- what a closure in use refers to is in use -/
  env : ∀ {s c}, heap s → closure s c → frame s (s.closure c).env
  body : ∀ {s c v}, heap s → closure s c → v ∈ (s.closure c).body → v.Over (closure s)
  /-- what a program of the host can name is in use -/
  named_frame : ∀ {s i}, heap s → i < named s → frame s i
  named_closure : ∀ {s c}, heap s → 0 < named s → closure s c
  /-- what is made of things in use is in use -/
  extend : ∀ {s i}, heap s → frame s i → heap (s.extend i).2 ∧ frame (s.extend i).2 s.frames.size
  addClosure : ∀ {s c}, heap s → frame s c.env → (∀ v ∈ c.body, v.Over (closure s)) →
    heap (s.addClosure c).2 ∧ closure (s.addClosure c).2 s.closures.size
  bindAt : ∀ {s i symbol v}, heap s → frame s i → s.isConstant i symbol = false →
    v.Over (closure s) → heap (s.bindAt i symbol v)
  bindExpander : ∀ {s i symbol c}, heap s → frame s i → closure s c →
    heap (s.bindExpander i symbol c)

namespace Invariant

variable (I : Invariant)

/-- All closures that occur in a value are in use. -/
def InUse (s : Store) (v : Value) : Prop := v.Over (I.closure s)

/-- All closures that occur in values are in use. -/
def AllInUse (s : Store) (vs : List Value) : Prop := ∀ v ∈ vs, I.InUse s v

/-- The programs of a function of the host name what they may name. -/
def Hosts (s : Store) (f : HostFunction) : Prop :=
  ∀ t, s.Larger t → ∀ calls args env, I.frame t env →
    env < I.named t ∧ (f calls args env).Within (I.named t)

/-- The programs of a subscriber name what they may name. -/
def Listens (s : Store) (react : String → HostProgram) : Prop :=
  ∀ content, (react content).Within (I.named s)

/-- The invariant holds of a store. -/
structure Holds (s : Store) : Prop where
  heap : I.heap s
  hosting : s.Hosting (I.Hosts s) (I.Listens s)

variable {I} {s t u : Store}

theorem inUse_mono {v : Value} (hv : I.InUse s v) (h : s.Larger t) : I.InUse t v :=
  Value.Over.mono hv fun _ hc => I.closure_mono hc h

theorem allInUse_mono {vs : List Value} (hvs : I.AllInUse s vs) (h : s.Larger t) :
    I.AllInUse t vs := fun v hv => inUse_mono (hvs v hv) h

theorem hosts_mono {f : HostFunction} (hf : I.Hosts s f) (h : s.Larger t) :
    I.Hosts t f := fun u hu => hf u (h.trans hu)

theorem listens_mono {react : String → HostProgram} (hr : I.Listens s react)
    (h : s.Larger t) : I.Listens t react := fun content => (hr content).mono (I.named_mono h)

theorem hosting_mono (hs : u.Hosting (I.Hosts s) (I.Listens s)) (h : s.Larger t) :
    u.Hosting (I.Hosts t) (I.Listens t) :=
  hs.mono (fun _ hf => hosts_mono hf h) fun _ hr => listens_mono hr h

/-- A heap that has changed, with the functions and the subscribers of the old store. -/
theorem Holds.of_heap (hs : I.Holds s) (hheap : I.heap t) (hst : s.Larger t)
    (hhosts : t.hosts = s.hosts) (hchannels : t.channels = s.channels) : I.Holds t :=
  ⟨hheap, hosting_mono (hs.hosting.of_same hhosts hchannels) hst⟩

/-- Functions and subscribers that have changed, on the heap of the old store. -/
theorem Holds.of_hosting (hs : I.Holds s) (hst : s.SameHeap t)
    (ht : t.Hosting (I.Hosts s) (I.Listens s)) : I.Holds t :=
  ⟨I.heap_of_same hs.heap hst, hosting_mono ht hst.larger⟩

/-! ### Runs that keep an invariant -/

variable (I) in
/-- How a run ends that has kept the invariant. -/
structure Kept (s : Store) (Q : Store → α → Prop) (r : Except Stop α × Store) : Prop where
  holds : I.Holds r.2
  larger : s.Larger r.2
  result : ∀ {a}, r.1 = .ok a → Q r.2 a

variable (I) in
/-- A run keeps the invariant from this store on, and ends with a result that fits. -/
def Keeps (s : Store) (m : Run α) (Q : Store → α → Prop) : Prop := I.Holds s → I.Kept s Q (m s)

namespace Keeps

variable {m : Run α} {Q Q' : Store → α → Prop} {R : Store → β → Prop} {a : α}

protected theorem pure (h : I.Holds s → Q s a) : I.Keeps s (pure a) Q := fun hs =>
  ⟨hs, .refl s, fun hr => Except.ok.inj hr ▸ h hs⟩

protected theorem throw (e : Stop) : I.Keeps s (throw e) Q := fun hs => ⟨hs, .refl s, nofun⟩

protected theorem read {f : Store → α} (h : I.Holds s → Q s (f s)) :
    I.Keeps s (Run.read f) Q := fun hs => ⟨hs, .refl s, fun hr => Except.ok.inj hr ▸ h hs⟩

protected theorem update {f : Store → α × Store}
    (h : I.Holds s → I.Holds (f s).2 ∧ s.Larger (f s).2 ∧ Q (f s).2 (f s).1) :
    I.Keeps s (Run.update f) Q := fun hs =>
  have ⟨hholds, hlarger, hresult⟩ := h hs
  ⟨hholds, hlarger, fun hr => Except.ok.inj hr ▸ hresult⟩

protected theorem change {f : Store → Store} {Q : Store → Unit → Prop}
    (h : I.Holds s → I.Holds (f s) ∧ s.Larger (f s) ∧ Q (f s) ()) :
    I.Keeps s (Run.change f) Q := fun hs =>
  have ⟨hholds, hlarger, hresult⟩ := h hs
  ⟨hholds, hlarger, fun _ => hresult⟩

protected theorem ofExcept {x : Except Fault α} (h : ∀ a, x = .ok a → I.Holds s → Q s a) :
    I.Keeps s (Run.ofExcept x) Q := by
  cases x with
  | ok a => exact Keeps.pure (h a rfl)
  | error f => exact Keeps.throw _

/-- An operation on a part of the store that has nothing to do with the heap. -/
theorem aside {f : Store → α × Store} (hheap : s.SameHeap (f s).2)
    (hhosts : (f s).2.hosts = s.hosts) (hchannels : (f s).2.channels = s.channels)
    (h : Q (f s).2 (f s).1) : I.Keeps s (Run.update f) Q :=
  Keeps.update fun hs =>
    ⟨hs.of_hosting hheap (hs.hosting.of_same hhosts hchannels), hheap.larger, h⟩

theorem of_aside {f : Store → Store} (hheap : s.SameHeap (f s))
    (hhosts : (f s).hosts = s.hosts) (hchannels : (f s).channels = s.channels) :
    I.Keeps s (Run.change f) fun _ _ => True :=
  Keeps.change fun hs =>
    ⟨hs.of_hosting hheap (hs.hosting.of_same hhosts hchannels), hheap.larger, trivial⟩

protected theorem ofFresh {body : Fresh α} {P : α → Prop} (hbody : body.Yields P)
    (h : ∀ t a, s.Larger t → P a → Q t a) : I.Keeps s (Run.ofFresh body) Q := by
  intro hs
  have hsame : s.SameHeap { s with nextId := (body s.nextId).2 } := .of_eq rfl rfl rfl
  rw [Run.ofFresh_apply]
  rcases hx : body s.nextId with ⟨f | a, next⟩ <;> rw [hx] at hsame
  · exact ⟨hs.of_hosting hsame (hs.hosting.of_same rfl rfl), hsame.larger, nofun⟩
  · refine ⟨hs.of_hosting hsame (hs.hosting.of_same rfl rfl), hsame.larger, fun {b} hb => ?_⟩
    cases hb
    exact h _ a hsame.larger (hbody _ a _ hx)

/-- A computation whose result is made of values in use. -/
theorem ofFreshValue {body : Fresh Value}
    (hbody : body.Yields (Value.Over (I.closure s))) :
    I.Keeps s (Run.ofFresh body) I.InUse :=
  Keeps.ofFresh hbody fun _ _ ht hv => inUse_mono hv ht

protected theorem bind {k : α → Run β} (h : I.Keeps s m Q)
    (hk : ∀ t a, s.Larger t → Q t a → I.Keeps t (k a) R) : I.Keeps s (m >>= k) R := by
  intro hs
  obtain ⟨hholds, hlarger, hresult⟩ := h hs
  rw [Run.bind_apply]
  rcases hm : m s with ⟨e | a, t⟩ <;> rw [hm] at hholds hlarger hresult
  -- what a failing first part has changed stands
  · exact ⟨hholds, hlarger, nofun⟩
  · obtain ⟨hholds', hlarger', hresult'⟩ := hk t a hlarger (hresult rfl) hholds
    exact ⟨hholds', hlarger.trans hlarger', hresult'⟩

theorem mono (h : I.Keeps s m Q) (hQ : ∀ t a, s.Larger t → I.Holds t → Q t a → Q' t a) :
    I.Keeps s m Q' := fun hs =>
  have ⟨hholds, hlarger, hresult⟩ := h hs
  ⟨hholds, hlarger, fun hr => hQ _ _ hlarger hholds (hresult hr)⟩

/-- What is known of a run that has succeeded. -/
theorem ok (h : I.Keeps s m Q) (hs : I.Holds s) (hm : m s = (.ok a, t)) :
    I.Holds t ∧ s.Larger t ∧ Q t a := by
  obtain ⟨hholds, hlarger, hresult⟩ := h hs
  rw [hm] at hholds hlarger hresult
  exact ⟨hholds, hlarger, hresult rfl⟩

/-- What is needed of the store holds because the invariant does. -/
theorem of_holds (h : I.Holds s → I.Keeps s m Q) : I.Keeps s m Q := fun hs => h hs hs

protected theorem observe (h : I.Keeps s m Q) :
    I.Keeps s (Run.observe m) fun t r => ∀ a, r = .ok a → Q t a := by
  intro hs
  obtain ⟨hholds, hlarger, hresult⟩ := h hs
  rw [Run.observe_apply]
  rcases hm : m s with ⟨(f | _) | a, t⟩ <;> rw [hm] at hholds hlarger hresult
  · exact ⟨hholds, hlarger, fun hr => by cases hr; exact nofun⟩
  · exact ⟨hholds, hlarger, nofun⟩
  · refine ⟨hholds, hlarger, fun hr => ?_⟩
    cases hr
    intro b hb
    cases hb
    exact hresult rfl

/-! #### Lists of steps -/

protected theorem mapM {f : α → Run β} (hR : ∀ t u b, t.Larger u → R t b → R u b) (xs : List α)
    (h : ∀ t, s.Larger t → ∀ x ∈ xs, I.Keeps t (f x) R) :
    I.Keeps s (xs.mapM f) fun t ys => ∀ y ∈ ys, R t y := by
  induction xs generalizing s with
  | nil => exact Keeps.pure fun _ => nofun
  | cons x xs ih =>
    rw [List.mapM_cons]
    refine (h s (.refl s) x List.mem_cons_self).bind fun t y ht hy => ?_
    refine (ih fun u hu z hz => h u (ht.trans hu) z (List.mem_cons_of_mem _ hz)).bind
      fun u ys hu hys => ?_
    -- the first result was in use in an earlier store
    exact Keeps.pure fun _ => List.forall_mem_cons.mpr ⟨hR t u y hu hy, hys⟩

protected theorem foldlM {g : β → α → Run β} (xs : List α) {b : β} (hb : R s b)
    (h : ∀ t b, s.Larger t → R t b → ∀ x ∈ xs, I.Keeps t (g b x) R) :
    I.Keeps s (xs.foldlM g b) R := by
  induction xs generalizing s b with
  | nil => exact Keeps.pure fun _ => hb
  | cons x xs ih =>
    rw [List.foldlM_cons]
    refine (h s b (.refl s) hb x List.mem_cons_self).bind fun t b' ht hb' => ?_
    exact ih hb' fun u b'' hu hb'' y hy => h u b'' (ht.trans hu) hb'' y (List.mem_cons_of_mem _ hy)

theorem filterAuxM {g : α → Run Bool} (xs acc : List α)
    (h : ∀ t, s.Larger t → ∀ x ∈ xs, I.Keeps t (g x) fun _ _ => True) :
    I.Keeps s (xs.filterAuxM g acc) fun _ ys => ∀ y ∈ ys, y ∈ xs ∨ y ∈ acc := by
  induction xs generalizing s acc with
  | nil => exact Keeps.pure fun _ _ hy => .inr hy
  | cons x xs ih =>
    refine (h s (.refl s) x List.mem_cons_self).bind fun t b ht _ => ?_
    refine (ih _ fun u hu z hz => h u (ht.trans hu) z (List.mem_cons_of_mem _ hz)).mono
      fun u ys _ _ hys y hy => ?_
    rcases hys y hy with hmem | hmem
    · exact .inl (List.mem_cons_of_mem _ hmem)
    · cases b with
      | false => exact .inr hmem
      | true =>
        rcases List.mem_cons.mp hmem with rfl | hmem
        · exact .inl List.mem_cons_self
        · exact .inr hmem

/-- What is kept of a list is in it. -/
protected theorem filterM {g : α → Run Bool} (xs : List α)
    (h : ∀ t, s.Larger t → ∀ x ∈ xs, I.Keeps t (g x) fun _ _ => True) :
    I.Keeps s (xs.filterM g) fun _ ys => ∀ y ∈ ys, y ∈ xs := by
  refine (filterAuxM xs [] h).bind fun t ys _ hys => ?_
  refine Keeps.pure fun _ y hy => ?_
  rcases hys y (List.mem_reverse.mp hy) with hmem | hmem
  · exact hmem
  · cases hmem

end Keeps

/-! ### Readings that keep an invariant -/

variable (I) in
/-- A reading keeps the invariant, and what it reads fits. -/
def ReadKeeps (s : Store) (r : Reading α) (Q : Store → α → Prop) : Prop :=
  ∀ source, I.Keeps s (r source) fun t p => ∀ a, p.1 = .ok a → Q t a

namespace ReadKeeps

variable {r : Reading α} {Q : Store → α → Prop} {R : Store → β → Prop}

protected theorem pure {a : α} (h : Q s a) : I.ReadKeeps s (pure a) Q :=
  fun _ => Keeps.pure fun _ b hb => by
    cases hb
    exact h

protected theorem throw (f : Fault) : I.ReadKeeps s (throw f) Q :=
  fun _ => Keeps.pure fun _ => nofun

protected theorem token : I.ReadKeeps s Reading.token fun _ _ => True :=
  fun _ => Keeps.pure fun _ _ _ => trivial

protected theorem get : I.ReadKeeps s (MonadState.get : Reading Source) fun _ _ => True :=
  fun _ => Keeps.pure fun _ _ _ => trivial

protected theorem bind {k : α → Reading β} (h : I.ReadKeeps s r Q)
    (hk : ∀ t a, s.Larger t → Q t a → I.ReadKeeps t (k a) R) : I.ReadKeeps s (r >>= k) R := by
  intro source
  rw [Reading.bind_apply]
  refine (h source).bind fun t p ht hp => ?_
  rcases p with ⟨f | a, rest⟩
  · exact Keeps.pure fun _ => nofun
  · exact hk t a ht (hp a rfl) rest

protected theorem ofRun {m : Run α} (h : I.Keeps s m Q) : I.ReadKeeps s (Reading.ofRun m) Q :=
  fun _ => h.observe.bind fun _ _ _ hr => Keeps.pure fun _ => hr

end ReadKeeps

/-! ### Calls -/

end Invariant

open Invariant

/-- What a call is given is in use. -/
def Call.InUse (I : Invariant) (s : Store) : Call α → Prop
  | .eval form env | .expand form env => I.InUse s form ∧ I.frame s env
  | .apply f args env => I.InUse s (.function f) ∧ I.AllInUse s args ∧ I.frame s env
  | .parse _ _ global _ => I.frame s global
  | .emit _ _ => True

/-- What a call results in is in use. -/
def Call.Results (I : Invariant) : Call α → Store → α → Prop
  | .eval .. | .expand .. | .apply .. => I.InUse
  | .parse .. => fun t p => ∀ v, p.1 = .ok v → I.InUse t v
  | .emit .. => fun _ _ => True

theorem Call.InUse.mono {I : Invariant} {s t : Store} (c : Call α) (hc : c.InUse I s)
    (h : s.Larger t) : c.InUse I t := by
  cases c with
  | eval form env => exact ⟨inUse_mono hc.1 h, I.frame_mono hc.2 h⟩
  | expand form env => exact ⟨inUse_mono hc.1 h, I.frame_mono hc.2 h⟩
  | apply f args env =>
    exact ⟨inUse_mono hc.1 h, allInUse_mono hc.2.1 h, I.frame_mono hc.2.2 h⟩
  | parse token mode global source => exact I.frame_mono hc h
  | emit channel content => trivial

theorem Call.Results.mono {I : Invariant} {s t : Store} (c : Call α) {a : α} (ha : c.Results I s a)
    (h : s.Larger t) : c.Results I t a := by
  cases c with
  | eval form env => exact inUse_mono ha h
  | expand form env => exact inUse_mono ha h
  | apply f args env => exact inUse_mono ha h
  | parse token mode global source => exact fun v hv => inUse_mono (ha v hv) h
  | emit channel content => trivial

/-- Calls that are given what is in use keep the invariant. -/
def RecurKeeps (I : Invariant) (self : Recur) : Prop :=
  ∀ {α : Type} (c : Call α) (s : Store), c.InUse I s → I.Keeps s (self c) (c.Results I)

end PocketLisp
