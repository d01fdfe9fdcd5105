/-
PocketLisp/Proofs/Retaining.lean

Stores that retain the constants of an earlier one.

`s.Retains live t` says of a store `t` that has come about from `s`: its heap
is sound, the frames of `s` are where they were, what is a constant in `s` is
one in `t`, and in the realms that are live no frame binds a constant of `s`
other than it did in `s`.  The last part speaks of the frames of `t`, so a
frame that has been added binds no such symbol at all.

To retain the constants of a store is an invariant of the heap
(`constancy`): a symbol is only bound where it is no constant.
-/
import PocketLisp.Proofs.Keeping

namespace PocketLisp

namespace Store

/-- What a later store has kept of an earlier one, as far as its constants go. -/
structure Retains (live : Nat → Prop) (s t : Store) : Prop where
  sound : t.Sound
  size : s.frames.size ≤ t.frames.size
  realms : s.realms.size ≤ t.realms.size
  realmOf : ∀ {i : Nat}, i < s.frames.size → t.realmOf i = s.realmOf i
  outer : ∀ {i : Nat}, i < s.frames.size → (t.frame i).outer = (s.frame i).outer
  /-- no realm gets another global frame -/
  added : ∀ {i : Nat}, s.frames.size ≤ i → i < t.frames.size → t.realmOf i < s.realms.size →
    (t.frame i).outer ≠ none
  constants : ∀ {realm symbol}, symbol ∈ s.constantsAt realm → symbol ∈ t.constantsAt realm
  names : ∀ {realm}, realm < s.realms.size → (s.symbolsAt realm).Extends (t.symbolsAt realm)
  /-- a constant is bound where it was bound before, and to the same value -/
  bound : ∀ {i : Nat} {symbol}, live (t.realmOf i) → symbol ∈ s.constantsAt (t.realmOf i) →
    t.bound? symbol i = s.bound? symbol i

variable {live : Nat → Prop} {s t : Store} {i : Nat}

/-- There is no frame outside of the store, so it binds nothing. -/
theorem bound?_of_le (h : s.frames.size ≤ i) (symbol : Symbol) : s.bound? symbol i = none := by
  rw [bound?, frame_of_le h]
  rfl

theorem mem_constantsAt {env : FrameId} {symbol : Symbol} :
    symbol ∈ s.constantsAt (s.realmOf env) ↔ s.isConstant env symbol = true := by
  rw [isConstant, List.contains_iff_mem]
  rfl

/-! ### Operations on the store -/

namespace Retains

theorem refl (live : Nat → Prop) (h : s.Sound) : s.Retains live s where
  sound := h
  size := Nat.le_refl _
  realms := Nat.le_refl _
  realmOf _ := rfl
  outer _ := rfl
  added hle hlt := absurd hlt (Nat.not_lt_of_le hle)
  constants h := h
  names _ := .refl _
  bound _ _ := rfl

/-- Frames that stay where they are, and bind the constants as they did. -/
theorem of_sameShape (h : s.Retains live t) {u : Store} (hu : t.SameShape u)
    (hconstants : ∀ {realm symbol}, symbol ∈ t.constantsAt realm → symbol ∈ u.constantsAt realm)
    (hnames : ∀ realm, (t.symbolsAt realm).Extends (u.symbolsAt realm))
    (hbound : ∀ {i : Nat} {symbol}, live (t.realmOf i) → symbol ∈ s.constantsAt (t.realmOf i) →
      u.bound? symbol i = t.bound? symbol i) : s.Retains live u where
  sound := h.sound.of_sameShape hu
  size := hu.size.symm ▸ h.size
  realms := hu.realms.symm ▸ h.realms
  realmOf hi := (hu.realmOf _).trans (h.realmOf hi)
  outer hi := (hu.outer _).trans (h.outer hi)
  added hle hlt hrealm := by
    rw [hu.size] at hlt
    rw [hu.realmOf] at hrealm
    rw [hu.outer]
    exact h.added hle hlt hrealm
  constants hc := hconstants (h.constants hc)
  names hr := (h.names hr).trans (hnames _)
  bound hlive hc := by
    rw [hu.realmOf] at hlive hc
    exact (hbound hlive hc).trans (h.bound hlive hc)

theorem sameHeap (h : s.Retains live t) {u : Store} (hu : t.SameHeap u) : s.Retains live u :=
  h.of_sameShape hu.sameShape (fun hc => (hu.constants _).symm ▸ hc) hu.names
    fun _ _ => hu.bound? _ _

/-- A new frame extends another, and binds nothing. -/
theorem extend (h : s.Retains live t) {env : Nat} (henv : env < t.frames.size) :
    s.Retains live (t.extend env).2 where
  sound := h.sound.extend henv
  size := Nat.le_trans h.size (by rw [size_extend]; exact Nat.le_succ _)
  realms := h.realms
  realmOf {i} hi := by
    have hlt := Nat.lt_of_lt_of_le hi h.size
    rw [realmOf_extend, if_neg (Nat.ne_of_lt hlt), h.realmOf hi]
  outer {i} hi := by
    have hlt := Nat.lt_of_lt_of_le hi h.size
    rw [frame_extend, if_neg (Nat.ne_of_lt hlt), h.outer hi]
  added {i} hle hlt hrealm := by
    rw [size_extend] at hlt
    rw [realmOf_extend] at hrealm
    rw [frame_extend]
    split
    · exact nofun
    · next hi =>
      rw [if_neg hi] at hrealm
      exact h.added hle (by omega) hrealm
  constants hc := h.constants hc
  names hr := h.names hr
  bound {i symbol} hlive hc := by
    rw [bound?_extend]
    rw [realmOf_extend] at hlive hc
    -- the new frame binds nothing yet
    split at hlive
    · next hi =>
      rw [bound?_of_le (Nat.le_of_eq hi.symm), bound?_of_le (hi ▸ h.size)]
    · next hi =>
      rw [if_neg hi] at hc
      exact h.bound hlive hc

theorem addClosure (h : s.Retains live t) {c : Closure} (hc : c.env < t.frames.size) :
    s.Retains live (t.addClosure c).2 :=
  { h with sound := h.sound.addClosure hc }

/-- Binding a symbol that is no constant. -/
theorem bindAt (h : s.Retains live t) {env : FrameId} {symbol : Symbol}
    (hsymbol : t.isConstant env symbol = false) (v : Value) :
    s.Retains live (t.bindAt env symbol v) := by
  refine h.of_sameShape (sameShape_bindAt t env symbol v) id (fun _ => .refl _) ?_
  intro i name _ hc
  refine bound?_bindAt_of_ne fun ⟨hi, hname⟩ => ?_
  -- the symbol would be a constant of the realm of its frame
  subst hi hname
  rw [mem_constantsAt.mp (h.constants hc)] at hsymbol
  cases hsymbol

theorem bindExpander (h : s.Retains live t) (env : FrameId) (symbol : Symbol) (c : Nat) :
    s.Retains live (t.bindExpander env symbol c) := by
  refine h.of_sameShape (sameShape_bindExpander t env symbol c) id (fun _ => .refl _) ?_
  intro i name _ _
  rw [bound?, frame_bindExpander, bound?]
  split <;> rfl

end Retains

/-! ### Operations of the host -/

theorem constantsAt_makeConstant (t : Store) (env : FrameId) (symbol : Symbol) (realm : Nat) :
    (t.makeConstant env symbol).constantsAt realm =
      if t.realmOf env = realm ∧ realm < t.realms.size ∧ symbol ∉ t.constantsAt realm then
        symbol :: t.constantsAt realm
      else t.constantsAt realm := by
  simp only [constantsAt, makeConstant, modifyRealm, Array.getD_eq_getD_getElem?,
    Array.getElem?_modify]
  -- the realm of the frame, if there is one, and no other
  by_cases hrealm : t.realmOf env = realm
  · subst hrealm
    rcases hr : t.realms[t.realmOf env]? with - | r
    · have hsize : ¬ t.realmOf env < t.realms.size := by simpa using hr
      simp [hsize]
    · obtain ⟨hsize, -⟩ := Array.getElem?_eq_some_iff.mp hr
      by_cases hmem : symbol ∈ r.constants <;> simp [hsize, hmem]
  · simp [hrealm]

theorem symbolsAt_makeConstant (t : Store) (env : FrameId) (symbol : Symbol) (realm : Nat) :
    (t.makeConstant env symbol).symbolsAt realm = t.symbolsAt realm := by
  simp only [symbolsAt, makeConstant, modifyRealm, Array.getD_eq_getD_getElem?,
    Array.getElem?_modify]
  split
  · rcases t.realms[realm]? with - | r
    · rfl
    · by_cases hmem : symbol ∈ r.constants <;> simp [hmem]
  · rfl

theorem sameShape_makeConstant (t : Store) (env : FrameId) (symbol : Symbol) :
    t.SameShape (t.makeConstant env symbol) :=
  ⟨rfl, Array.size_modify, fun _ => rfl, fun _ => rfl, rfl⟩

/-- To make a symbol a constant takes nothing back. -/
theorem Retains.makeConstant (h : s.Retains live t) (env : FrameId) (symbol : Symbol) :
    s.Retains live (t.makeConstant env symbol) := by
  refine h.of_sameShape (sameShape_makeConstant t env symbol) (fun {realm name} hc => ?_)
    (fun realm => ?_) fun _ _ => rfl
  · rw [constantsAt_makeConstant]
    split
    · exact List.mem_cons_of_mem _ hc
    · exact hc
  · rw [symbolsAt_makeConstant]
    exact .refl _

theorem frame_addRealm (t : Store) (caseRule : CaseRule) (maxDepth i : Nat) :
    (t.addRealm caseRule maxDepth).2.frame i =
      if i = t.frames.size then ⟨t.realms.size, none, [], []⟩ else t.frame i := by
  simp only [frame, addRealm, Array.getD_eq_getD_getElem?, Array.getElem?_push]
  split <;> rfl

theorem realmOf_addRealm (t : Store) (caseRule : CaseRule) (maxDepth i : Nat) :
    (t.addRealm caseRule maxDepth).2.realmOf i =
      if i = t.frames.size then t.realms.size else t.realmOf i := by
  rw [Store.realmOf, frame_addRealm]
  split <;> rfl

/-- A new realm has a frame of its own and nothing to do with the others. -/
theorem Retains.addRealm (h : s.Retains live t) (caseRule : CaseRule) (maxDepth : Nat) :
    s.Retains live (t.addRealm caseRule maxDepth).2 := by
  have hframes : (t.addRealm caseRule maxDepth).2.frames.size = t.frames.size + 1 :=
    Array.size_push ..
  have hrealms : (t.addRealm caseRule maxDepth).2.realms.size = t.realms.size + 1 :=
    Array.size_push ..
  have hold : ∀ {i : Nat}, i < s.frames.size → i ≠ t.frames.size :=
    fun hi => Nat.ne_of_lt (Nat.lt_of_lt_of_le hi h.size)
  -- the default realm has no constants, so the new realm takes none away
  have hrealmAt : ∀ realm, realm < t.realms.size →
      (t.addRealm caseRule maxDepth).2.realms.getD realm default =
        t.realms.getD realm default := by
    intro realm hr
    simp only [Store.addRealm, Array.getD_eq_getD_getElem?, Array.getElem?_push,
      if_neg (Nat.ne_of_lt hr)]
  have hrealm : ∀ {i : Nat}, i ≠ t.frames.size →
      (t.addRealm caseRule maxDepth).2.realmOf i = t.realmOf i :=
    fun hi => by rw [realmOf_addRealm, if_neg hi]
  exact {
    sound := {
      inRealm := fun {i} hi => by
        rw [hframes] at hi
        rw [hrealms, realmOf_addRealm]
        split
        · exact Nat.lt_succ_self _
        · exact Nat.lt_succ_of_lt (h.sound.inRealm (by omega))
      outer := fun {i o} houter => by
        rw [frame_addRealm] at houter
        split at houter
        · cases houter
        · exact h.sound.outer houter
      realm := fun {i o} houter => by
        rw [frame_addRealm] at houter
        split at houter
        · cases houter
        · next hi =>
          have ho : o < t.frames.size := Nat.lt_trans (h.sound.outer houter) (lt_of_outer houter)
          rw [hrealm (Nat.ne_of_lt ho), hrealm hi, h.sound.realm houter]
      env := fun hc => Nat.lt_of_lt_of_le (h.sound.env hc) (hframes ▸ Nat.le_succ _) }
    size := Nat.le_trans h.size (hframes ▸ Nat.le_succ _)
    realms := Nat.le_trans h.realms (hrealms ▸ Nat.le_succ _)
    realmOf := fun hi => (hrealm (hold hi)).trans (h.realmOf hi)
    outer := fun hi => by
      rw [frame_addRealm, if_neg (hold hi), h.outer hi]
    added := fun {i} hle hlt hr => by
      rw [hframes] at hlt
      rw [realmOf_addRealm] at hr
      split at hr
      · exact absurd hr (Nat.not_lt_of_le h.realms)
      · next hi =>
        rw [frame_addRealm, if_neg hi]
        exact h.added hle (by omega) hr
    -- a constant of no realm does not exist
    constants := fun {realm symbol} hc => by
      have hmem := h.constants hc
      by_cases hr : realm < t.realms.size
      · rw [constantsAt, hrealmAt realm hr]
        exact hmem
      · rw [constantsAt, Array.getD_eq_getD_getElem?,
          Array.getElem?_eq_none (Nat.le_of_not_lt hr)] at hmem
        cases hmem
    names := fun {realm} hr => by
      rw [symbolsAt, symbolsAt, hrealmAt realm (Nat.lt_of_lt_of_le hr h.realms)]
      exact h.names hr
    bound := fun {i symbol} hlive hc => by
      rw [bound?, frame_addRealm]
      rw [realmOf_addRealm] at hlive hc
      split
      · next hi =>
        rw [bound?_of_le (hi ▸ h.size)]
        rfl
      · next hi =>
        rw [if_neg hi] at hlive hc
        exact h.bound hlive hc }

theorem frame_clear (t : Store) (env i : Nat) :
    (t.clear env).frame i =
      if env = i ∧ i < t.frames.size then { t.frame i with values := [], expanders := [] }
      else t.frame i := by
  simp only [frame, clear, Array.getD_eq_getD_getElem?, Array.getElem?_modify]
  by_cases hi : i < t.frames.size
  · rw [Array.getElem?_eq_getElem hi]
    by_cases henv : env = i <;> simp [henv, hi]
  · rw [Array.getElem?_eq_none (Nat.le_of_not_lt hi)]
    simp [hi]

theorem sameShape_clear (t : Store) (env : FrameId) : t.SameShape (t.clear env) where
  size := Array.size_modify
  realms := rfl
  realmOf i := by
    rw [Store.realmOf, frame_clear]
    split <;> rfl
  outer i := by
    rw [frame_clear]
    split <;> rfl
  closures := rfl

/-- Clearing a frame of a realm that is not live. -/
theorem Retains.clear (h : s.Retains live t) {env : Nat} (henv : ¬ live (t.realmOf env)) :
    s.Retains live (t.clear env) := by
  refine h.of_sameShape (sameShape_clear t env) id (fun _ => .refl _) ?_
  intro i symbol hlive _
  have hne : ¬ (env = i ∧ i < t.frames.size) := fun hi => henv (hi.1 ▸ hlive)
  rw [bound?, frame_clear, if_neg hne, bound?]

end Store

/-! ### The invariant -/

/-- The constants of a store are retained.  All frames and all values are in use. -/
def constancy (live : Nat → Prop) (s : Store) : Invariant where
  heap t := s.Retains live t
  frame t i := i < t.frames.size
  closure t _ := 0 < t.frames.size
  named t := t.frames.size
  sound h := h.sound
  heap_of_same h hu := h.sameHeap hu
  inRange hi := hi
  frame_mono hi h := Nat.lt_of_lt_of_le hi h.frames
  closure_mono hc h := Nat.lt_of_lt_of_le hc h.frames
  named_mono h := h.frames
  outer h hi ho := Nat.lt_trans (h.sound.outer ho) hi
  bound _ hi _ _ _ := Nat.zero_lt_of_lt hi
  expander _ hi _ := Nat.zero_lt_of_lt hi
  env {t c} h hpos := by
    by_cases hc : c < t.closures.size
    · exact h.sound.env hc
    · -- what is no closure counts as one of the first frame
      rw [Store.closure, Array.getD_eq_getD_getElem?,
        Array.getElem?_eq_none (Nat.le_of_not_lt hc)]
      exact hpos
  body _ hpos _ _ _ := hpos
  named_frame _ hi := hi
  named_closure _ hpos := hpos
  extend {t i} h hi := ⟨h.extend hi, by rw [Store.size_extend]; exact Nat.lt_succ_self _⟩
  addClosure h hc _ := ⟨h.addClosure hc, Nat.zero_lt_of_lt hc⟩
  bindAt h _ hsymbol _ := h.bindAt hsymbol _
  bindExpander h _ _ := h.bindExpander _ _ _

end PocketLisp
