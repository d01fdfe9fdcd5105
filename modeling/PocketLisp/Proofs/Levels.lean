/-
PocketLisp/Proofs/Levels.lean

The nesting of a store, apart from everything else in it.

`Store.level` is the depth and the limit of each realm.  Two stores are
`Alike` if they differ in these only.  An operation is `Blind` if it neither
changes them nor depends on them: on stores that are alike it has the same
result and leaves stores that are alike.

Main results: every operation of the store but `deepen` and `riseIn` is blind
(`blind_intern`, `blind_bindAt`, …), and a host program can be added only
where it is named (`Store.Quiet`).
-/
import PocketLisp.Interpreter

namespace PocketLisp

/-! ### Levels -/

/-- The nesting of a realm: how deep it is and how deep it may be. -/
@[ext] structure Level where
  depth : Nat
  limit : Nat
  deriving DecidableEq, Repr

/-- There is room for one more nested step. -/
def Level.HasRoom (l : Level) : Prop := l.depth + 1 ≤ l.limit

/-- The level of the realm at a place. -/
def Store.level (s : Store) (realm : Nat) : Level :=
  ⟨(s.realms.getD realm default).depth, (s.realms.getD realm default).maxDepth⟩

/-- Levels outside of the array of realms are those of no realm. -/
theorem Store.level_of_size_le {s : Store} {i : Nat} (h : s.realms.size ≤ i) :
    s.level i = ⟨0, 0⟩ := by
  simp only [level, Array.getD_eq_getD_getElem?, Array.getElem?_eq_none h]
  rfl

/-- A realm without its nesting. -/
def Realm.plain (r : Realm) : Realm := { r with depth := 0, maxDepth := 0 }

/-- Two stores that differ at most in the nesting of their realms. -/
structure Store.Alike (s t : Store) : Prop where
  same : t = { s with realms := t.realms }
  plain : ∀ i : Nat, t.realms[i]?.map Realm.plain = s.realms[i]?.map Realm.plain

namespace Store.Alike

variable {s t : Store}

theorem refl (s : Store) : Alike s s := ⟨rfl, fun _ => rfl⟩

/-- The stores that are alike are those with other realms of the same plain form. -/
theorem exists_realms (h : Alike s t) :
    ∃ R : Array Realm, t = { s with realms := R } ∧
      ∀ i : Nat, R[i]?.map Realm.plain = s.realms[i]?.map Realm.plain :=
  ⟨t.realms, h.same, h.plain⟩

theorem symm (h : Alike s t) : Alike t s := by
  obtain ⟨R, rfl, hR⟩ := h.exists_realms
  exact ⟨rfl, fun i => (hR i).symm⟩

theorem trans {u : Store} (h : Alike s t) (h' : Alike t u) : Alike s u := by
  obtain ⟨R, rfl, hR⟩ := h.exists_realms
  obtain ⟨R', rfl, hR'⟩ := h'.exists_realms
  exact ⟨rfl, fun i => (hR' i).trans (hR i)⟩

theorem plain_getD {R S : Array Realm}
    (h : ∀ i : Nat, R[i]?.map Realm.plain = S[i]?.map Realm.plain) (i : Nat) :
    (R.getD i default).plain = (S.getD i default).plain := by
  have hi := h i
  rw [Array.getD_eq_getD_getElem?, Array.getD_eq_getD_getElem?]
  rcases hR : R[i]? with - | r <;> rcases hS : S[i]? with - | r' <;> simp_all

theorem realm_plain (h : Alike s t) (env : FrameId) :
    (t.realm env).plain = (s.realm env).plain := by
  obtain ⟨R, rfl, hR⟩ := h.exists_realms
  exact plain_getD hR _

theorem realm_symbols (h : Alike s t) (env : FrameId) :
    (t.realm env).symbols = (s.realm env).symbols := by
  show (t.realm env).plain.symbols = (s.realm env).plain.symbols
  rw [h.realm_plain env]

theorem realm_constants (h : Alike s t) (env : FrameId) :
    (t.realm env).constants = (s.realm env).constants := by
  show (t.realm env).plain.constants = (s.realm env).plain.constants
  rw [h.realm_plain env]

/-- Stores that are alike and on the same levels are equal. -/
theorem eq_of_level (h : Alike s t) (hl : t.level = s.level) : t = s := by
  obtain ⟨R, rfl, hR⟩ := h.exists_realms
  -- a realm is its plain part and its level
  have hreal : R = s.realms := by
    refine Array.ext_getElem? fun i => ?_
    have hi := hR i
    have hli := congrFun hl i
    simp only [Store.level, Array.getD_eq_getD_getElem?, Level.mk.injEq] at hli
    rcases e : R[i]? with - | r <;> rcases e' : s.realms[i]? with - | r' <;>
      simp only [e, e', Option.map_some, Option.map_none, reduceCtorEq] at hi ⊢
    rw [e, e'] at hli
    obtain ⟨hd, hm⟩ := hli
    obtain ⟨sy, co, d, m⟩ := r
    obtain ⟨sy', co', d', m'⟩ := r'
    simp only [Realm.plain, Option.some.injEq, Realm.mk.injEq, Option.getD_some] at hi hd hm
    simp [hi, hd, hm]
  rw [hreal]

end Store.Alike

/-! ### Quiet hosts -/

/-- A program of the host that never asks the engine to evaluate, to call or to read anything. -/
inductive HostProgram.Quiet : HostProgram → Prop
  | done (v : Value) : Quiet (.done v)
  | fail (f : Fault) : Quiet (.fail f)
  | list {items next} : (∀ v, Quiet (next v)) → Quiet (.list items next)
  | text {content next} : (∀ v, Quiet (next v)) → Quiet (.text content next)
  | isGlobal {env next} : (∀ b, Quiet (next b)) → Quiet (.isGlobal env next)
  | boundSymbols {env next} : (∀ l, Quiet (next l)) → Quiet (.boundSymbols env next)
  | define {env s v next} : (∀ r, Quiet (next r)) → Quiet (.define env s v next)
  | emit {channel content next} : Quiet next → Quiet (.emit channel content next)
  | subscribe {channel react next} :
      (∀ content, Quiet (react content)) → Quiet next → Quiet (.subscribe channel react next)
  | note {line next} : Quiet next → Quiet (.note line next)

/-- All functions of the host and all subscribers are quiet. -/
structure Store.Quiet (s : Store) : Prop where
  hosts : ∀ {i : Nat} {f : HostFunction} {n : Nat}, s.hosts[i]? = some (f, n) →
    ∀ calls args env, (f calls args env).Quiet
  subscribers : ∀ {i j : Nat} {xs : Array Subscriber} {x : Subscriber},
    s.channels[i]? = some xs → xs[j]? = some x → ∀ content, (x.react content).Quiet

/-! ### Operations that are blind to the nesting -/

namespace Store

/-- What is read off a store does not depend on its nesting. -/
def Unseen {α : Type} (f : Store → α) : Prop := ∀ s t : Store, Alike s t → f t = f s

/-- An operation neither depends on the nesting nor changes it. -/
structure Blind {α : Type} (f : Store → α × Store) : Prop where
  result : ∀ {s t}, Alike s t → (f t).1 = (f s).1
  alike : ∀ {s t}, Alike s t → Alike (f s).2 (f t).2
  level : ∀ s, (f s).2.level = s.level

/-- A blind operation that adds no program of the host. -/
structure Harmless {α : Type} (f : Store → α × Store) : Prop extends Blind f where
  quiet : ∀ {s}, s.Quiet → (f s).2.Quiet

/-- An operation that does the same whatever the realms are, and leaves them, is blind. -/
theorem blind_of_realms {α : Type} {f : Store → α × Store}
    (h : ∀ s R, f { s with realms := R } = ((f s).1, { (f s).2 with realms := R })) : Blind f := by
  -- the hypothesis at a store's own realms says that they stay
  have keep : ∀ s, (f s).2.realms = s.realms := by
    intro s
    have hs := congrArg (fun p => p.2.realms) (h s s.realms)
    exact hs
  refine ⟨?_, ?_, ?_⟩
  · intro s t hst
    obtain ⟨R, rfl, -⟩ := hst.exists_realms
    rw [h s R]
  · intro s t hst
    obtain ⟨R, rfl, hR⟩ := hst.exists_realms
    rw [h s R]
    refine ⟨rfl, fun i => ?_⟩
    show R[i]?.map Realm.plain = (f s).2.realms[i]?.map Realm.plain
    rw [keep, hR]
  · intro s
    funext i
    simp only [Store.level, keep]

theorem unseen_of_realms {α : Type} {f : Store → α}
    (h : ∀ s R, f { s with realms := R } = f s) : Unseen f := by
  intro s t hst
  obtain ⟨R, rfl, -⟩ := hst.exists_realms
  rw [h]

theorem Unseen.harmless {α : Type} {f : Store → α} (hf : Unseen f) :
    Harmless fun s => (f s, s) where
  result := hf _ _
  alike h := h
  level _ := rfl
  quiet h := h

/-- A realm may change in anything but its nesting. -/
theorem level_modifyRealm (s : Store) (env : FrameId) {change : Realm → Realm}
    (hd : ∀ r, (change r).depth = r.depth) (hm : ∀ r, (change r).maxDepth = r.maxDepth) :
    (s.modifyRealm env change).level = s.level := by
  funext i
  simp only [level, modifyRealm, Array.getD_eq_getD_getElem?, Array.getElem?_modify]
  split
  · rcases s.realms[i]? with - | r <;> simp [hd, hm]
  · rfl

/-- A change of one realm that leaves its level and looks at its plain form only is blind. -/
theorem blind_modifyRealm {env : FrameId} {α β : Type} {f : Store → α} (hf : Unseen f)
    (result : α → β) (g : α → Realm → Realm) (hplain : ∀ a r, (g a r).plain = (g a r.plain).plain)
    (hd : ∀ a r, (g a r).depth = r.depth) (hm : ∀ a r, (g a r).maxDepth = r.maxDepth) :
    Blind fun s => (result (f s), s.modifyRealm env (g (f s))) := by
  refine ⟨?_, ?_, ?_⟩
  · intro s t hst
    show result (f t) = result (f s)
    rw [hf s t hst]
  · intro s t hst
    show Alike (s.modifyRealm env (g (f s))) (t.modifyRealm env (g (f t)))
    rw [hf s t hst]
    obtain ⟨R, rfl, hR⟩ := hst.exists_realms
    refine ⟨rfl, fun i => ?_⟩
    have hi := hR i
    show (R.modify (s.realmOf env) _)[i]?.map _ = (s.realms.modify (s.realmOf env) _)[i]?.map _
    rw [Array.getElem?_modify, Array.getElem?_modify]
    -- the changed realm, then the others
    split
    · rcases e : R[i]? with - | r <;> rcases e' : s.realms[i]? with - | r' <;>
        simp only [e, e', Option.map_some, Option.map_none, reduceCtorEq, Option.some.injEq] at hi ⊢
      rw [hplain, hi, ← hplain]
    · exact hi
  · exact fun s => level_modifyRealm s env (hd _) (hm _)

theorem Blind.seq {α β : Type} {f : Store → α × Store} {g : α → Store → β × Store} (hf : Blind f)
    (hg : ∀ a, Blind (g a)) : Blind fun s => g (f s).1 (f s).2 where
  result {s t} hst := by rw [hf.result hst, (hg _).result (hf.alike hst)]
  alike {s t} hst := by rw [hf.result hst]; exact (hg _).alike (hf.alike hst)
  level s := by rw [(hg _).level, hf.level]

/-! #### Names -/

theorem harmless_intern (env : FrameId) (name : String) : Harmless fun s => s.intern env name := by
  have h : Blind fun s => s.intern env name :=
    blind_modifyRealm (f := fun s => (s.realm env).symbols.intern name)
      (fun s t hst => by dsimp only; rw [hst.realm_symbols env]) Prod.fst
      (fun a r => { r with symbols := a.2 })
      (fun _ _ => rfl) (fun _ _ => rfl) fun _ _ => rfl
  exact ⟨h, fun hq => ⟨hq.hosts, hq.subscribers⟩⟩

theorem harmless_generateSymbol (env : FrameId) : Harmless fun s => s.generateSymbol env := by
  have h : Blind fun s => s.generateSymbol env :=
    blind_modifyRealm (f := fun s => (s.realm env).symbols.generate)
      (fun s t hst => by dsimp only; rw [hst.realm_symbols env]) Prod.fst
      (fun a r => { r with symbols := a.2 })
      (fun _ _ => rfl) (fun _ _ => rfl) fun _ _ => rfl
  exact ⟨h, fun hq => ⟨hq.hosts, hq.subscribers⟩⟩

theorem unseen_isConstant (env : FrameId) (symbol : Symbol) :
    Unseen fun s => s.isConstant env symbol := by
  intro s t hst
  show (t.realm env).constants.contains symbol = (s.realm env).constants.contains symbol
  rw [hst.realm_constants env]

/-! #### Frames and closures -/

theorem unseen_global (env : FrameId) : Unseen fun s => s.global env :=
  unseen_of_realms fun _ _ => rfl

theorem unseen_isGlobal (env : FrameId) : Unseen fun s => s.isGlobal env :=
  unseen_of_realms fun _ _ => rfl

theorem unseen_valueOf (env : FrameId) (symbol : Symbol) : Unseen fun s => s.valueOf env symbol :=
  unseen_of_realms fun _ _ => rfl

theorem unseen_boundSymbols (env : FrameId) : Unseen fun s => s.boundSymbols env :=
  unseen_of_realms fun _ _ => rfl

theorem unseen_expander? (env : FrameId) (symbol : Symbol) :
    Unseen fun s => s.expander? env symbol :=
  unseen_of_realms fun _ _ => rfl

theorem unseen_closure (index : Nat) : Unseen fun s => s.closure index :=
  unseen_of_realms fun _ _ => rfl

theorem unseen_definePlace (env : FrameId) (symbol : Symbol) :
    Unseen fun s => s.definePlace env symbol := by
  intro s t hst
  have h : t.isConstant env symbol = s.isConstant env symbol := unseen_isConstant env symbol s t hst
  simp only [definePlace, h]

theorem unseen_assignPlace (env : FrameId) (symbol : Symbol) :
    Unseen fun s => s.assignPlace env symbol := by
  intro s t hst
  have h : t.isConstant env symbol = s.isConstant env symbol := unseen_isConstant env symbol s t hst
  have hb : t.binder? env symbol = s.binder? env symbol := by
    obtain ⟨R, rfl, -⟩ := hst.exists_realms
    rfl
  simp only [assignPlace, h, hb]

theorem harmless_bindAt (i : FrameId) (symbol : Symbol) (v : Value) :
    Harmless fun s => ((), s.bindAt i symbol v) :=
  ⟨blind_of_realms fun _ _ => rfl, fun hq => ⟨hq.hosts, hq.subscribers⟩⟩

theorem harmless_bindExpander (i : FrameId) (symbol : Symbol) (closure : Nat) :
    Harmless fun s => ((), s.bindExpander i symbol closure) :=
  ⟨blind_of_realms fun _ _ => rfl, fun hq => ⟨hq.hosts, hq.subscribers⟩⟩

theorem harmless_extend (env : FrameId) : Harmless fun s => s.extend env :=
  ⟨blind_of_realms fun _ _ => rfl, fun hq => ⟨hq.hosts, hq.subscribers⟩⟩

theorem harmless_addClosure (c : Closure) : Harmless fun s => s.addClosure c :=
  ⟨blind_of_realms fun _ _ => rfl, fun hq => ⟨hq.hosts, hq.subscribers⟩⟩

theorem harmless_nextId {α : Type} (f : ObjectId → α × ObjectId) :
    Harmless fun s => ((f s.nextId).1, { s with nextId := (f s.nextId).2 }) :=
  ⟨blind_of_realms fun _ _ => rfl, fun hq => ⟨hq.hosts, hq.subscribers⟩⟩

/-! #### Files and ports -/

theorem harmless_readFile (path : String) : Harmless fun s => s.readFile path :=
  ⟨blind_of_realms fun _ _ => rfl, fun hq => ⟨hq.hosts, hq.subscribers⟩⟩

theorem unseen_source? (table port : Nat) : Unseen fun s => (s.portTable table).source? port :=
  unseen_of_realms fun _ _ => rfl

theorem harmless_modifyPorts (table : Nat) (change : PortTable → PortTable) :
    Harmless fun s => ((), s.modifyPorts table change) :=
  ⟨blind_of_realms fun _ _ => rfl, fun hq => ⟨hq.hosts, hq.subscribers⟩⟩

theorem harmless_openPort (table : Nat) (source : Source) :
    Harmless fun s => s.openPort table source :=
  ⟨blind_of_realms fun _ _ => rfl, fun hq => ⟨hq.hosts, hq.subscribers⟩⟩

/-! #### The host -/

theorem harmless_countCall (i : Nat) : Harmless fun s => s.countCall i := by
  refine ⟨blind_of_realms fun s R => ?_, fun {s} hq => ?_⟩
  · rcases e : s.hosts[i]? with - | ⟨f, n⟩ <;> simp [countCall, e]
  · rcases e : s.hosts[i]? with - | ⟨f, n⟩
    · simpa [countCall, e] using hq
    · refine ⟨fun {j} g m hg => ?_, fun h => hq.subscribers (by simpa [countCall, e] using h)⟩
      simp only [countCall, e, Array.getElem?_modify] at hg
      split at hg
      · obtain ⟨⟨f', n'⟩, hf', heq⟩ := Option.map_eq_some_iff.mp hg
        simp only [Prod.mk.injEq] at heq
        rw [← heq.1]
        exact hq.hosts hf'
      · exact hq.hosts hg

theorem countCall_quiet {s : Store} (hq : s.Quiet) {i : Nat} {f : HostFunction} {n : Nat}
    (h : (s.countCall i).1 = some (f, n)) (calls : Nat) (args : List Value) (env : FrameId) :
    (f calls args env).Quiet := by
  rcases e : s.hosts[i]? with - | ⟨g, m⟩
  · simp [countCall, e] at h
  · simp only [countCall, e, Option.some.injEq, Prod.mk.injEq] at h
    rw [← h.1]
    exact hq.hosts e calls args env

theorem harmless_note (line : String) : Harmless fun s => ((), s.note line) :=
  ⟨blind_of_realms fun _ _ => rfl, fun hq => ⟨hq.hosts, hq.subscribers⟩⟩

theorem unseen_subscriberCount (channel : Nat) : Unseen fun s => s.subscriberCount channel :=
  unseen_of_realms fun _ _ => rfl

theorem unseen_idleSubscriber? (channel i : Nat) :
    Unseen fun s => s.idleSubscriber? channel i :=
  unseen_of_realms fun _ _ => rfl

theorem idleSubscriber?_quiet {s : Store} (hq : s.Quiet) {channel i : Nat} {x : Subscriber}
    (h : s.idleSubscriber? channel i = some x) (content : String) : (x.react content).Quiet := by
  have hx : (s.channels[channel]?.bind fun subscribers => subscribers[i]?) = some x :=
    Option.eq_some_of_filter_eq_some h
  obtain ⟨xs, hxs, hx⟩ := Option.bind_eq_some_iff.mp hx
  exact hq.subscribers hxs hx content

theorem harmless_setBusy (channel i : Nat) (busy : Bool) :
    Harmless fun s => ((), s.setBusy channel i busy) := by
  refine ⟨blind_of_realms fun _ _ => rfl, fun {s} hq => ⟨hq.hosts, fun {k j} xs x hxs hx => ?_⟩⟩
  simp only [setBusy, Array.getElem?_modify] at hxs
  split at hxs
  · obtain ⟨ys, hys, rfl⟩ := Option.map_eq_some_iff.mp hxs
    rw [Array.getElem?_modify] at hx
    split at hx
    · obtain ⟨y, hy, rfl⟩ := Option.map_eq_some_iff.mp hx
      exact hq.subscribers (x := y) hys hy
    · exact hq.subscribers hys hx
  · exact hq.subscribers hxs hx

theorem blind_subscribe (channel : Nat) (react : String → HostProgram) :
    Blind fun s => ((), s.subscribe channel react) :=
  blind_of_realms fun _ _ => rfl

theorem subscribe_quiet {s : Store} (hq : s.Quiet) {channel : Nat} {react : String → HostProgram}
    (hr : ∀ content, (react content).Quiet) : (s.subscribe channel react).Quiet := by
  refine ⟨hq.hosts, fun {k j} xs x hxs hx => ?_⟩
  simp only [subscribe, Array.getElem?_modify] at hxs
  split at hxs
  · obtain ⟨ys, hys, rfl⟩ := Option.map_eq_some_iff.mp hxs
    rw [Array.getElem?_push] at hx
    split at hx
    · cases hx
      exact hr
    · exact hq.subscribers hys hx
  · exact hq.subscribers hxs hx

/-! ### Taking and giving back a nested step -/

end Store

/-- Levels after one more nested step in a realm. -/
def raise (realm : Nat) (l : Nat → Level) : Nat → Level := fun i =>
  if i = realm then ⟨(l i).depth + 1, (l i).limit⟩ else l i

/-- Levels after one nested step less in a realm. -/
def lower (realm : Nat) (l : Nat → Level) : Nat → Level := fun i =>
  if i = realm then ⟨(l i).depth - 1, (l i).limit⟩ else l i

@[simp] theorem lower_raise (realm : Nat) (l : Nat → Level) : lower realm (raise realm l) = l := by
  funext i
  by_cases h : i = realm <;> simp [lower, raise, h]

namespace Store

theorem depthFault?_eq_none_iff {s : Store} {env : FrameId} :
    s.depthFault? env = none ↔ (s.level (s.realmOf env)).HasRoom := by
  simp [depthFault?, Level.HasRoom, level, realm]

theorem depthFault?_of_no_room {s : Store} {env : FrameId}
    (h : ¬ (s.level (s.realmOf env)).HasRoom) :
    s.depthFault? env = some (.stackExhausted (s.level (s.realmOf env)).limit) := by
  have hlt : (s.realm env).maxDepth < (s.realm env).depth + 1 := Nat.lt_of_not_le h
  simp only [depthFault?, hlt, if_true]
  rfl

theorem level_deepen {s : Store} {env : FrameId} (h : (s.level (s.realmOf env)).HasRoom) :
    (s.deepen env).level = raise (s.realmOf env) s.level := by
  funext i
  simp only [level, deepen, modifyRealm, raise, Array.getD_eq_getD_getElem?,
    Array.getElem?_modify] at h ⊢
  by_cases hi : i = s.realmOf env
  · subst hi
    -- a realm with room exists: the default one has none
    rcases e : s.realms[s.realmOf env]? with - | r
    · rw [e] at h
      exact absurd h (Nat.not_succ_le_zero 0)
    · simp
  · rw [if_neg (Ne.symm hi), if_neg hi]

theorem level_riseIn (s : Store) (realm : Nat) : (s.riseIn realm).level = lower realm s.level := by
  funext i
  simp only [level, riseIn, lower, Array.getD_eq_getD_getElem?, Array.getElem?_modify]
  by_cases hi : i = realm
  · subst hi
    rcases s.realms[i]? with - | r <;> simp
    rfl
  · rw [if_neg (Ne.symm hi), if_neg hi]

variable {s t : Store}

theorem Alike.realmOf (h : Alike s t) (env : FrameId) : t.realmOf env = s.realmOf env := by
  obtain ⟨R, rfl, -⟩ := h.exists_realms
  rfl

/-- Changing only the nesting of a realm leaves a store alike. -/
theorem alike_modify (s : Store) (realm : Nat) (g : Realm → Realm)
    (hg : ∀ r, (g r).plain = r.plain) :
    Alike s { s with realms := s.realms.modify realm g } := by
  refine ⟨rfl, fun i => ?_⟩
  show (s.realms.modify realm g)[i]?.map _ = _
  rw [Array.getElem?_modify]
  split
  · rcases s.realms[i]? with - | r <;> simp [hg]
  · rfl

theorem alike_deepen (s : Store) (env : FrameId) : Alike s (s.deepen env) :=
  alike_modify s _ _ fun _ => rfl

theorem alike_riseIn (s : Store) (realm : Nat) : Alike s (s.riseIn realm) :=
  alike_modify s _ _ fun _ => rfl

theorem Alike.deepen (h : Alike s t) (env : FrameId) : Alike (s.deepen env) (t.deepen env) :=
  (alike_deepen s env).symm.trans (h.trans (alike_deepen t env))

theorem Alike.riseIn (h : Alike s t) (realm : Nat) : Alike (s.riseIn realm) (t.riseIn realm) :=
  (alike_riseIn s realm).symm.trans (h.trans (alike_riseIn t realm))

/-- What is blind to the nesting does the same inside of a nested step. -/
theorem Blind.nested {α : Type} {f : Store → α × Store} (hf : Blind f) {s : Store} {env : FrameId}
    (h : (s.level (s.realmOf env)).HasRoom) :
    (f (s.deepen env)).1 = (f s).1 ∧ (f (s.deepen env)).2.riseIn (s.realmOf env) = (f s).2 := by
  have halike := hf.alike (alike_deepen s env)
  refine ⟨hf.result (alike_deepen s env), ?_⟩
  refine (halike.trans (alike_riseIn _ _)).eq_of_level ?_
  rw [level_riseIn, hf.level, hf.level, level_deepen h, lower_raise]

/-! ### Room -/

/-- How many more nested steps are possible in the realm of a frame. -/
def room (s : Store) (env : FrameId) : Nat :=
  (s.level (s.realmOf env)).limit - (s.level (s.realmOf env)).depth

theorem hasRoom_iff {s : Store} {env : FrameId} :
    (s.level (s.realmOf env)).HasRoom ↔ 0 < s.room env := by
  simp only [Level.HasRoom, room]
  omega

theorem room_deepen {s : Store} {env : FrameId} (h : (s.level (s.realmOf env)).HasRoom) :
    (s.deepen env).room env = s.room env - 1 := by
  have hrealm : (s.deepen env).realmOf env = s.realmOf env := rfl
  simp only [room, hrealm, level_deepen h, raise, if_true]
  omega

end Store

end PocketLisp
