/-
PocketLisp/Proofs/Growth.lean

Stores that have only grown.

`s.Grown t` says that `t` is `s` after more frames, closures and objects have
been made and more names interned, at whatever nesting: what was there is
there and unchanged.  This is what runs without side effects do to a store.
In all stores that have grown out of one, its global frames have the same
macros (`Store.Grown.expander?`).
-/
import PocketLisp.Proofs.Grammar
import PocketLisp.Proofs.Content
import PocketLisp.Proofs.Interning

namespace PocketLisp

namespace Store

/-- The second store has all that the first has, and differs only by what has been added. -/
structure Grown (s t : Store) : Prop where
  same : t = { s with
    frames := t.frames, closures := t.closures, realms := t.realms, nextId := t.nextId }
  frames : ∀ {i : Nat} {f : Frame}, s.frames[i]? = some f → t.frames[i]? = some f
  closures : ∀ {i : Nat} {c : Closure}, s.closures[i]? = some c → t.closures[i]? = some c
  size : t.realms.size = s.realms.size
  constants : ∀ i : Nat,
    (t.realms.getD i default).constants = (s.realms.getD i default).constants

/-- A frame of the store that extends no other. -/
def HasGlobal (s : Store) (g : FrameId) : Prop :=
  ∃ f, s.frames[g]? = some f ∧ f.outer = none

variable {s t : Store} {g : FrameId}

namespace Grown

theorem refl (s : Store) : s.Grown s := ⟨rfl, id, id, rfl, fun _ => rfl⟩

theorem trans {u : Store} (h : s.Grown t) (h' : t.Grown u) : s.Grown u where
  same := h'.same.trans (congrArg (fun w : Store => { w with
    frames := u.frames, closures := u.closures, realms := u.realms, nextId := u.nextId }) h.same)
  frames := fun hf => h'.frames (h.frames hf)
  closures := fun hc => h'.closures (h.closures hc)
  size := h'.size.trans h.size
  constants := fun i => (h'.constants i).trans (h.constants i)

theorem nextId (h : s.Grown t) (n : ObjectId) : s.Grown { t with nextId := n } := by
  refine ⟨?_, h.frames, h.closures, h.size, h.constants⟩
  rw [h.same]

theorem addList (h : s.Grown t) (items : List Value) : s.Grown (t.addList items).2 := h.nextId _

/-- Changing anything but the constants of a realm. -/
theorem modify_realms (h : s.Grown t) (realm : Nat) {change : Realm → Realm}
    (hc : ∀ r, (change r).constants = r.constants) :
    s.Grown { t with realms := t.realms.modify realm change } := by
  refine ⟨?_, h.frames, h.closures, ?_, fun i => ?_⟩
  · rw [h.same]
  · rw [← h.size]
    exact Array.size_modify
  · rw [← h.constants i]
    show ((t.realms.modify realm change).getD i default).constants = _
    simp only [Array.getD_eq_getD_getElem?, Array.getElem?_modify]
    split
    · rcases t.realms[i]? with - | r <;> simp [hc]
    · rfl

theorem intern (h : s.Grown t) (env : FrameId) (name : String) : s.Grown (t.intern env name).2 :=
  h.modify_realms _ fun _ => rfl

theorem deepen (h : s.Grown t) (env : FrameId) : s.Grown (t.deepen env) :=
  h.modify_realms _ fun _ => rfl

theorem riseIn (h : s.Grown t) (realm : Nat) : s.Grown (t.riseIn realm) :=
  h.modify_realms _ fun _ => rfl

theorem build (h : s.Grown t) {p : Part} (d : Datum p) (env : FrameId) :
    s.Grown (d.build env t).2 := by
  induction d generalizing t with
  | number x => exact h
  | text content => exact h.nextId _
  | symbol name => exact h.intern env name
  | quote d ih => exact ((ih h).intern env _).addList _
  | list ds ih => exact (ih h).addList _
  | none => exact h
  | more d ds ih ih' => exact ih' (ih h)

/-- The realm of a frame stays the same. -/
theorem realmOf (h : s.Grown t) (hg : s.HasGlobal g) : t.realmOf g = s.realmOf g := by
  obtain ⟨f, hf, -⟩ := hg
  simp only [Store.realmOf, frame, Array.getD_eq_getD_getElem?, h.frames hf, hf]

theorem hasGlobal (h : s.Grown t) (hg : s.HasGlobal g) : t.HasGlobal g := by
  obtain ⟨f, hf, houter⟩ := hg
  exact ⟨f, h.frames hf, houter⟩

end Grown

/-- The chain of a global frame is the frame alone. -/
theorem HasGlobal.chain (h : s.HasGlobal g) : s.chain g = [g] := by
  obtain ⟨f, hf, houter⟩ := h
  obtain ⟨hsize, -⟩ := Array.getElem?_eq_some_iff.mp hf
  obtain ⟨n, hn⟩ := Nat.exists_eq_add_one.mpr (Nat.zero_lt_of_lt hsize)
  simp only [Store.chain, hn, chainWithin, hf, houter]

/-- The macros of a global frame stay the same. -/
theorem Grown.expander? (h : s.Grown t) (hg : s.HasGlobal g) (symbol : Symbol) :
    t.expander? g symbol = s.expander? g symbol := by
  have hchain := hg.chain
  have hchain' := (h.hasGlobal hg).chain
  obtain ⟨f, hf, -⟩ := hg
  simp only [Store.expander?, hchain, hchain', List.findSome?_cons, List.findSome?_nil, frame,
    Array.getD_eq_getD_getElem?, h.frames hf, hf]

end Store

/-! ### The same names -/

namespace Store

variable {s t u : Store} {g : FrameId}

/-- The content of a new list is that of its items. -/
theorem bare_addList (s : Store) (items : List Value) :
    (s.addList items).1.bare = Value.bareList items :=
  Value.bare_chain_reverse _ _ _

namespace SameNames

theorem trans (h : SameNames g s t) (h' : SameNames g t u) : SameNames g s u :=
  ⟨h'.realmOf.trans h.realmOf, h'.size.trans h.size, h'.symbols.trans h.symbols⟩

/-- New lists in both stores. -/
theorem addList (h : SameNames g s t) (vs ws : List Value) :
    SameNames g (s.addList vs).2 (t.addList ws).2 :=
  ⟨h.realmOf, h.size, h.symbols⟩

/-- Changing anything but the names of a realm. -/
theorem modify_realms (h : SameNames g s t) (realm : Nat) {change : Realm → Realm}
    (hc : ∀ r, (change r).symbols = r.symbols) :
    SameNames g s { t with realms := t.realms.modify realm change } := by
  refine ⟨h.realmOf, ?_, ?_⟩
  · rw [← h.size]
    exact Array.size_modify
  · rw [← h.symbols]
    show ((t.realms.modify realm change).getD (t.realmOf g) default).symbols =
      (t.realms.getD (t.realmOf g) default).symbols
    simp only [Array.getD_eq_getD_getElem?, Array.getElem?_modify]
    split
    · rcases t.realms[t.realmOf g]? with - | r <;> simp [hc]
    · rfl

theorem deepen (h : SameNames g s t) (env : FrameId) : SameNames g s (t.deepen env) :=
  h.modify_realms _ fun _ => rfl

theorem riseIn (h : SameNames g s t) (realm : Nat) : SameNames g s (t.riseIn realm) :=
  h.modify_realms _ fun _ => rfl

end SameNames

end Store

end PocketLisp
