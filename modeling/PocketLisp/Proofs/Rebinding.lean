/-
PocketLisp/Proofs/Rebinding.lean

What binding a symbol changes, and who sees it.

Here the way outwards from a frame is followed link by link: `OnChain` are the
frames that are met, and `Nearest` is the first of them that binds a symbol.
In a sound heap, what the store finds in its lists of frames is what is found on
this way (`lookup?_step`, `binder?_step`).

A definition binds a symbol in one frame, and so does an assignment, in the
nearest frame that binds it already.  What is changed is said by `Rebound`: of
the whole store no more than that binding, and of all frames, whatever chains
they are on, just those see the new value from which the changed frame is the
nearest one that binds the symbol (`lookup?_bindAt`).

Main result: `binding_effect`.
-/
import Mathlib.Logic.Relation
import PocketLisp.Proofs.Heap

namespace PocketLisp

namespace Store

/-! ### The way outwards -/

/-- The frames that are met from a frame outwards, the frame itself among them. -/
def OnChain (s : Store) : (env i : FrameId) → Prop :=
  Relation.ReflTransGen fun i o => (s.frame i).outer = some o

/-- The nearest frame that binds a symbol, from a frame outwards. -/
inductive Nearest (s : Store) (symbol : Symbol) : (env i : FrameId) → Prop
  | here {env : FrameId} {v : Value} : s.bound? symbol env = some v → Nearest s symbol env env
  | outer {env o i : FrameId} : s.bound? symbol env = none → (s.frame env).outer = some o →
    Nearest s symbol o i → Nearest s symbol env i

variable {s t : Store} {symbol name : Symbol} {v : Value} {env i : FrameId}

theorem Nearest.onChain (h : s.Nearest symbol env i) : s.OnChain env i := by
  induction h with
  | here _ => exact .refl
  | outer _ houter _ ih => exact .head houter ih

theorem Nearest.bound (h : s.Nearest symbol env i) : ∃ v, s.bound? symbol i = some v := by
  induction h with
  | here hv => exact ⟨_, hv⟩
  | outer _ _ _ ih => exact ih

theorem lt_of_bound? (h : s.bound? symbol i = some v) : i < s.frames.size := by
  refine Nat.lt_of_not_le fun hle => ?_
  rw [bound?, frame_of_le hle] at h
  cases h

theorem Nearest.lt (h : s.Nearest symbol env i) : i < s.frames.size := by
  obtain ⟨v, hv⟩ := h.bound
  exact lt_of_bound? hv

/-- Where a frame on the way binds a symbol, there is a nearest one. -/
theorem OnChain.exists_nearest (h : s.OnChain env i) (hv : s.bound? symbol i = some v) :
    ∃ j, s.Nearest symbol env j := by
  induction h using Relation.ReflTransGen.head_induction_on with
  | refl => exact ⟨i, .here hv⟩
  | @head env o houter _ ih =>
    rcases henv : s.bound? symbol env with - | w
    · obtain ⟨j, hj⟩ := ih
      exact ⟨j, .outer henv houter hj⟩
    · exact ⟨env, .here henv⟩

/-- A symbol is bound nowhere on the way if and only if there is no nearest frame that binds it. -/
theorem forall_onChain_iff :
    (∀ i, s.OnChain env i → s.bound? symbol i = none) ↔ ∀ i, ¬ s.Nearest symbol env i := by
  constructor
  · intro h i hi
    obtain ⟨v, hv⟩ := hi.bound
    rw [h i hi.onChain] at hv
    cases hv
  · intro h i hi
    rcases hv : s.bound? symbol i with - | v
    · rfl
    · obtain ⟨j, hj⟩ := hi.exists_nearest hv
      exact absurd hj (h j)

/-! ### What the store finds -/

/-- The chain of a frame, also where there is no such frame. -/
theorem Sound.chain_step (hs : s.Sound) (env : FrameId) :
    (s.chain env = [] ∧ s.frame env = default) ∨
      s.chain env = env :: match (s.frame env).outer with
        | none => []
        | some o => s.chain o := by
  by_cases henv : env < s.frames.size
  · exact .inr (hs.chain_eq henv)
  · have hle := Nat.le_of_not_lt henv
    refine .inl ⟨?_, frame_of_le hle⟩
    cases hn : s.frames.size with
    | zero => rw [chain, hn, chainWithin]
    | succ n => rw [chain, hn, chainWithin, Array.getElem?_eq_none hle]

/-- A symbol is looked up in a frame, and then in the frame that this one extends. -/
theorem lookup?_step (hs : s.Sound) (env : FrameId) (symbol : Symbol) :
    s.lookup? env symbol =
      (s.bound? symbol env).or ((s.frame env).outer.bind fun o => s.lookup? o symbol) := by
  rw [lookup?]
  rcases hs.chain_step env with ⟨hchain, hframe⟩ | hchain
  · rw [hchain, bound?, hframe]
    rfl
  · rw [hchain, List.findSome?_cons]
    rcases s.bound? symbol env with - | v
    · rcases (s.frame env).outer with - | o <;> rfl
    · rfl

/-- So is the frame in which a symbol is bound. -/
theorem binder?_step (hs : s.Sound) (env : FrameId) (symbol : Symbol) :
    s.binder? env symbol =
      ((s.bound? symbol env).map fun _ => env).or
        ((s.frame env).outer.bind fun o => s.binder? o symbol) := by
  rw [binder?]
  rcases hs.chain_step env with ⟨hchain, hframe⟩ | hchain
  · rw [hchain, bound?, hframe]
    rfl
  · rw [hchain, List.find?_cons]
    rcases s.bound? symbol env with - | v
    · rcases (s.frame env).outer with - | o <;> rfl
    · rfl

/-- The frame that is found is the nearest one. -/
theorem binder?_eq_some_iff (hs : s.Sound) :
    s.binder? env symbol = some i ↔ s.Nearest symbol env i := by
  induction env using Nat.strongRecOn with
  | ind env ih =>
    rw [binder?_step hs]
    -- bound here, or looked for in the outer frame, which is older
    rcases henv : s.bound? symbol env with - | v
    · rcases houter : (s.frame env).outer with - | o
      · refine ⟨nofun, fun h => ?_⟩
        cases h with
        | here hv => rw [henv] at hv; cases hv
        | outer _ ho _ => rw [houter] at ho; cases ho
      · show s.binder? o symbol = some i ↔ _
        rw [ih o (hs.outer houter)]
        refine ⟨.outer henv houter, fun h => ?_⟩
        cases h with
        | here hv => rw [henv] at hv; cases hv
        | outer _ ho hi =>
          rw [houter] at ho
          cases ho
          exact hi
    · show some env = some i ↔ _
      refine ⟨fun h => Option.some.inj h ▸ .here henv, fun h => ?_⟩
      cases h with
      | here _ => rfl
      | outer hnone _ _ => rw [henv] at hnone; cases hnone

theorem binder?_eq_none_iff (hs : s.Sound) :
    s.binder? env symbol = none ↔ ∀ i, s.OnChain env i → s.bound? symbol i = none := by
  rw [forall_onChain_iff]
  simp only [← binder?_eq_some_iff hs, Option.eq_none_iff_forall_ne_some, ne_eq]

/-- From a frame outwards, the value is found that the nearest frame binds the symbol to. -/
theorem Nearest.lookup?_eq (hs : s.Sound) (h : s.Nearest symbol env i) :
    s.lookup? env symbol = s.bound? symbol i := by
  induction h with
  | here hv => rw [lookup?_step hs, hv, Option.some_or]
  | outer hnone houter _ ih =>
    rw [lookup?_step hs, hnone, houter, Option.none_or]
    exact ih

/-! ### One binding is changed -/

/-- The second store is the first one but for what a symbol is bound to in one frame. -/
structure Rebound (s : Store) (i : FrameId) (symbol : Symbol) (v : Value) (t : Store) : Prop where
  /-- only frames are changed, and there are as many as before -/
  rest : t = { s with frames := t.frames }
  size : t.frames.size = s.frames.size
  /-- the other frames stay as they are, and this one in all but its bindings -/
  others : ∀ j ≠ i, t.frame j = s.frame j
  values : t.frame i = { s.frame i with values := (t.frame i).values }
  bound : t.bound? symbol i = some v
  names : ∀ name ≠ symbol, t.bound? name i = s.bound? name i
  /-- the value is found from the frames from which the binding is the nearest one -/
  seen : ∀ env, t.Nearest symbol env i → Run.get env symbol t = (.ok v, t)
  /-- whatever else is looked up, from whatever frame, is what it was before -/
  unseen : ∀ env name, ¬ (name = symbol ∧ t.Nearest symbol env i) →
    Run.get env name t = ((Run.get env name s).1, t)

theorem Rebound.bound?_other (h : s.Rebound i symbol v t) {j : FrameId} (hj : j ≠ i) :
    t.bound? name j = s.bound? name j := by
  rw [bound?, h.others j hj]
  rfl

/-- All frames but those from which the changed one is the nearest find what they found before. -/
theorem lookup?_bindAt (hs : s.Sound) (hi : i < s.frames.size) (env : FrameId)
    (h : ¬ (name = symbol ∧ (s.bindAt i symbol v).Nearest symbol env i)) :
    (s.bindAt i symbol v).lookup? env name = s.lookup? env name := by
  have hshape := sameShape_bindAt s i symbol v
  -- outwards along the chain, as long as the symbol is not bound
  induction env using Nat.strongRecOn with
  | ind env ih =>
    by_cases hchanged : i = env ∧ symbol = name
    · obtain ⟨rfl, rfl⟩ := hchanged
      exact absurd ⟨rfl, .here (bound?_bindAt_self hi)⟩ h
    · have hbound := bound?_bindAt_of_ne (v := v) (s := s) hchanged
      rw [lookup?_step (hs.of_sameShape hshape), lookup?_step hs, hbound, hshape.outer]
      rcases hnone : s.bound? name env with - | w
      · rcases houter : (s.frame env).outer with - | o
        · rfl
        · refine ih o (hs.outer houter) fun ⟨hname, ho⟩ => h ⟨hname, ?_⟩
          subst hname
          exact .outer (hbound.trans hnone) ((hshape.outer env).trans houter) ho
      · rfl

theorem get_apply (s : Store) (env : FrameId) (symbol : Symbol) :
    Run.get env symbol s = match s.lookup? env symbol with
      | some v => (.ok v, s)
      | none => (.error (.fault (.undefinedSymbol symbol.name)), s) := by
  rw [Run.get, Run.bind_apply, Run.read_apply]
  dsimp only
  unfold valueOf
  cases s.lookup? env symbol <;> rfl

theorem rebound_bindAt (hs : s.Sound) (hi : i < s.frames.size) (symbol : Symbol) (v : Value) :
    s.Rebound i symbol v (s.bindAt i symbol v) where
  rest := rfl
  size := size_bindAt s i symbol v
  others j hj := by rw [frame_bindAt, if_neg fun h => hj h.1.symm]
  values := by rw [frame_bindAt, if_pos ⟨rfl, hi⟩]
  bound := bound?_bindAt_self hi
  names name hname := bound?_bindAt_of_ne fun h => hname h.2.symm
  seen env h := by
    have hlookup := h.lookup?_eq (hs.of_sameShape (sameShape_bindAt s i symbol v))
    rw [get_apply, hlookup, bound?_bindAt_self hi]
  unseen env name h := by
    rw [get_apply, get_apply, lookup?_bindAt hs hi env h]
    cases s.lookup? env name <;> rfl

end Store

/-! ### Definitions and assignments -/

theorem Run.assign_apply (env : FrameId) (symbol : Symbol) (v : Value) (s : Store) :
    Run.assign env symbol v s =
      if s.isConstant env symbol then (.error (.fault (.constantViolation symbol.name)), s)
      else match s.binder? env symbol with
        | some i => (.ok (), s.bindAt i symbol v)
        | none => (.error (.fault (.undefinedSymbol symbol.name)), s) := by
  rw [Run.assign, bind_apply, read_apply]
  dsimp only
  unfold Store.assignPlace
  split
  · rfl
  · rcases s.binder? env symbol with - | i <;> rfl

/-- What a definition and an assignment in a frame do, in any sound heap.

* If the symbol is a constant, both fail and leave the store as it is.
* Otherwise a definition binds the symbol in that frame, whether it was bound there or not.
* An assignment binds it in the nearest frame that binds it.  If no frame on the chain does, and
  only then, it fails, and leaves the store as it is.

Either changes nothing else, and is seen from just those frames from which the changed one is then
the nearest that binds the symbol. -/
theorem binding_effect {s : Store} (hs : s.Sound) {env : FrameId} (henv : env < s.frames.size)
    (symbol : Symbol) (v : Value) :
    (s.isConstant env symbol = true →
      Run.define env symbol v s = (.error (.fault (.constantViolation symbol.name)), s) ∧
      Run.assign env symbol v s = (.error (.fault (.constantViolation symbol.name)), s)) ∧
    (s.isConstant env symbol = false →
      (∃ t, Run.define env symbol v s = (.ok (), t) ∧ s.Rebound env symbol v t) ∧
      (∀ i, s.Nearest symbol env i →
        ∃ t, Run.assign env symbol v s = (.ok (), t) ∧ s.Rebound i symbol v t) ∧
      ((∀ i, s.OnChain env i → s.bound? symbol i = none) ↔
        Run.assign env symbol v s = (.error (.fault (.undefinedSymbol symbol.name)), s)) ∧
      ((∃ i, s.Nearest symbol env i) ∨
        Run.assign env symbol v s = (.error (.fault (.undefinedSymbol symbol.name)), s))) := by
  rw [Run.define_apply, Run.assign_apply]
  constructor
  · intro hconstant
    rw [hconstant]
    exact ⟨rfl, rfl⟩
  intro hconstant
  rw [hconstant]
  refine ⟨⟨_, rfl, Store.rebound_bindAt hs henv symbol v⟩, ?_⟩
  simp only [Bool.false_eq_true, if_false]
  rw [← Store.binder?_eq_none_iff hs]
  -- no frame of the chain binds the name, or the nearest of them takes the value
  rcases hbinder : s.binder? env symbol with - | i
  · have hnone := Store.forall_onChain_iff.mp ((Store.binder?_eq_none_iff hs).mp hbinder)
    exact ⟨fun i hi => absurd hi (hnone i), ⟨fun _ => rfl, fun _ => rfl⟩, .inr rfl⟩
  · have hi := (Store.binder?_eq_some_iff hs).mp hbinder
    refine ⟨fun j hj => ?_, ⟨nofun, nofun⟩, .inl ⟨i, hi⟩⟩
    have hji := (Store.binder?_eq_some_iff hs).mpr hj
    rw [hbinder] at hji
    cases hji
    exact ⟨_, rfl, Store.rebound_bindAt hs hi.lt symbol v⟩

/-- A global frame that binds the symbol number 0, and two frames that extend it, of which the
second binds that symbol too.  The symbol number 1 is a constant. -/
def Store.shadowed : Store where
  frames := #[⟨0, none, [(⟨0, 0, "x", none⟩, .nil)], []⟩, ⟨0, some 0, [], []⟩,
    ⟨0, some 0, [(⟨0, 0, "x", none⟩, .nil)], []⟩]
  closures := #[]
  realms := #[⟨⟨0, .preserve, ["k", "x"], 0⟩, [⟨1, 0, "k", none⟩], 0, 8⟩]
  channels := #[]
  portTables := #[]
  hosts := #[]
  nextId := 0
  files := .empty
  sought := []
  transcript := #[]

/-- From the first of the two frames the global binding is assigned to, which the second does not
see; a definition there is seen from that frame alone. -/
theorem binding_effect_of_shadowed :
    let s := Store.shadowed
    let x : Symbol := ⟨0, 0, "x", none⟩
    let k : Symbol := ⟨1, 0, "k", none⟩
    let y : Symbol := ⟨2, 0, "y", none⟩
    s.Sound ∧ 1 < s.frames.size ∧
      Run.define 1 k .t s = (.error (.fault (.constantViolation "k")), s) ∧
      Run.assign 1 y .t s = (.error (.fault (.undefinedSymbol "y")), s) ∧
      (∃ t, Run.assign 1 x .t s = (.ok (), t) ∧ Run.get 1 x t = (.ok .t, t) ∧
        Run.get 2 x t = (.ok .nil, t)) ∧
      ∃ t, Run.define 1 x .t s = (.ok (), t) ∧ Run.get 1 x t = (.ok .t, t) ∧
        Run.get 0 x t = (.ok .nil, t) := by
  intro s x k y
  have hframes : ∀ i < 3, s.realmOf i = 0 ∧ ∀ o ∈ (s.frame i).outer, o = 0 ∧ 0 < i := by decide
  have houter {i o : Nat} (h : (s.frame i).outer = some o) : o = 0 ∧ 0 < i :=
    (hframes i (Store.lt_of_outer h)).2 o h
  have hs : s.Sound :=
    { inRealm := fun hi => (hframes _ hi).1 ▸ Nat.one_pos
      outer := fun h => (houter h).1 ▸ (houter h).2
      realm := fun h => by rw [(houter h).1, (hframes _ (Store.lt_of_outer h)).1]; rfl
      env := nofun }
  have hlt : 1 < s.frames.size := by decide
  have hx := (binding_effect hs hlt x .t).2 (by decide)
  have hnearest : s.Nearest x 1 0 := .outer (by decide) (by decide) (.here rfl)
  obtain ⟨t, hdefine, hdefined⟩ := hx.1
  obtain ⟨u, hassign, hassigned⟩ := hx.2.1 0 hnearest
  have hunbound : ∀ i, s.OnChain 1 i → s.bound? y i = none := fun i _ => by
    have hnone : ∀ i < 3, s.bound? y i = none := by decide
    rcases hbound : s.bound? y i with - | w
    · rfl
    · rw [hnone i (Store.lt_of_bound? hbound)] at hbound
      cases hbound
  refine ⟨hs, hlt, ((binding_effect hs hlt k .t).1 (by decide)).1,
    ((binding_effect hs hlt y .t).2 (by decide)).2.2.1.mp hunbound,
    ⟨u, hassign, hassigned.seen 1 ?_, hassigned.unseen 2 x ?_⟩,
    t, hdefine, hdefined.seen 1 (.here hdefined.bound), hdefined.unseen 0 x ?_⟩
  · refine .outer ?_ ?_ (.here hassigned.bound)
    · rw [hassigned.bound?_other (by decide)]
      decide
    · rw [hassigned.others 1 (by decide)]
      decide
  · rintro ⟨-, hseen⟩
    cases hseen with
    | outer hnone _ _ =>
      rw [hassigned.bound?_other (by decide)] at hnone
      cases hnone
  · rintro ⟨-, hseen⟩
    cases hseen with
    | outer _ hout _ =>
      rw [hdefined.others 0 (by decide)] at hout
      cases hout

end PocketLisp
