/-
PocketLisp/Proofs/Creation.lean

Engines can be made.

While an engine is made, names are bound in its global frame.  That fails for
a constant only, and the constants so far are keywords, which no primitive is
named like (`PrimitiveGroup.name_ne_keyword`).  So an engine that runs no
initial program can be made in any store, and the store it leaves differs from
the one with a new realm by bindings, names and constants only.

Main result: `Engine.create_eq_ok`.
-/
import PocketLisp.Engine
import PocketLisp.Proofs.Levels
import PocketLisp.Proofs.Retaining

namespace PocketLisp

variable {α β : Type}

/-! ### Runs that succeed -/

namespace Run

/-- A run ends with a result in a store, of which this holds. -/
def Succeeds (m : Run α) (s : Store) (Q : α → Store → Prop) : Prop :=
  ∃ a t, m s = (.ok a, t) ∧ Q a t

namespace Succeeds

variable {m : Run α} {s : Store} {Q : α → Store → Prop} {R : β → Store → Prop}

theorem update {f : Store → α × Store} (h : Q (f s).1 (f s).2) : (Run.update f).Succeeds s Q :=
  ⟨_, _, rfl, h⟩

protected theorem bind {k : α → Run β} (h : m.Succeeds s Q)
    (hk : ∀ a t, Q a t → (k a).Succeeds t R) : (m >>= k).Succeeds s R := by
  obtain ⟨a, t, hm, hq⟩ := h
  obtain ⟨b, u, hka, hr⟩ := hk a t hq
  exact ⟨b, u, (Run.bind_apply_ok hm).trans hka, hr⟩

theorem forM {f : α → Run Unit} {I : Store → Prop} {xs : List α}
    (h : ∀ x ∈ xs, ∀ t, I t → (f x).Succeeds t fun _ => I) (hs : I s) :
    (xs.forM f).Succeeds s fun _ => I := by
  induction xs generalizing s with
  | nil => exact ⟨(), s, rfl, hs⟩
  | cons x xs ih =>
    refine (h x List.mem_cons_self s hs).bind fun _ t ht => ?_
    exact ih (fun y hy => h y (List.mem_cons_of_mem _ hy)) ht

end Succeeds

end Run

/-! ### Names of primitives -/

/-- The keywords that are bound when an engine is made. -/
def boundKeywords : List Keyword := [.t, .nil]

/-- A name that is folded to no keyword that is bound when an engine is made. -/
def Unclaimed (name : String) : Prop :=
  ∀ rule : CaseRule, ∀ k ∈ boundKeywords, Keyword.recognize? rule (rule.fold name) ≠ some k

/-- No primitive is named like such a keyword. -/
theorem PrimitiveGroup.unclaimed (group : PrimitiveGroup) (channel ports : Nat) (marker : Symbol) :
    ∀ p ∈ group.entries channel ports marker, Unclaimed p.1 := by
  have hnames : (group.entries channel ports marker).map Prod.fst =
      (group.entries 0 0 default).map Prod.fst := by
    cases group <;> rfl
  have hchecked : ∀ rule ∈ [CaseRule.preserve, .upper], ∀ k ∈ boundKeywords,
      ∀ group ∈ all, ∀ name ∈ (group.entries 0 0 default).map Prod.fst,
        Keyword.recognize? rule (rule.fold name) ≠ some k := by
    decide +kernel
  intro p hp rule k hk
  refine hchecked rule (by cases rule <;> decide) k hk group (by cases group <;> decide) p.1 ?_
  exact hnames ▸ List.mem_map_of_mem hp

/-! ### Binding names in a new realm -/

/-- A store in which names have been bound in a frame since another one, of which the constants of
that frame are keywords. -/
structure Store.Equipped (s : Store) (g : FrameId) (taken : List Keyword) (t : Store) : Prop where
  shape : s.SameShape t
  level : t.level = s.level
  constants : ∀ symbol ∈ t.constantsAt (t.realmOf g), ∃ k ∈ taken, symbol.keyword = some k

namespace Store.Equipped

variable {s t u : Store} {g : FrameId} {taken : List Keyword}

/-- What changes names and bindings only. -/
theorem of_sameShape (h : s.Equipped g taken t) (hu : t.SameShape u) (hlevel : u.level = t.level)
    (hconstants : u.constantsAt (t.realmOf g) = t.constantsAt (t.realmOf g)) :
    s.Equipped g taken u where
  shape := h.shape.trans hu
  level := hlevel.trans h.level
  constants := by
    rw [hu.realmOf, hconstants]
    exact h.constants

theorem of_eq (h : s.Equipped g taken t) (hframes : u.frames = t.frames)
    (hclosures : u.closures = t.closures) (hrealms : u.realms = t.realms) :
    s.Equipped g taken u := by
  have hsame : t.SameHeap u := .of_eq hframes hclosures hrealms
  refine h.of_sameShape hsame.sameShape ?_ (hsame.constants _)
  funext realm
  rw [Store.level, hrealms, Store.level]

theorem intern (h : s.Equipped g taken t) (name : String) :
    (Run.intern g name).Succeeds t fun symbol u =>
      (∃ rule : CaseRule, symbol.keyword = Keyword.recognize? rule (rule.fold name)) ∧
        s.Equipped g taken u := by
  have hsame := SameHeap.intern t g name
  have hlevel := (harmless_intern g name).level t
  exact .update ⟨⟨_, keyword_intern t g name⟩,
    h.of_sameShape hsame.sameShape hlevel (hsame.constants _)⟩

/-- Binding fails for constants only, and these are keywords. -/
theorem define (h : s.Equipped g taken t) {symbol : Symbol}
    (hfree : ∀ k ∈ taken, symbol.keyword ≠ some k) (v : Value) :
    (Run.define g symbol v).Succeeds t fun _ u => s.Equipped g taken u := by
  have hconstant : t.isConstant g symbol = false := by
    refine Bool.eq_false_iff.mpr fun hc => ?_
    obtain ⟨k, hk, hsymbol⟩ := h.constants symbol (mem_constantsAt.mpr hc)
    exact hfree k hk hsymbol
  refine ⟨(), t.bindAt g symbol v, ?_, h.of_sameShape (sameShape_bindAt t g symbol v) rfl rfl⟩
  rw [Run.define_apply, if_neg (Bool.eq_false_iff.mp hconstant)]

theorem makeConstant (h : s.Equipped g taken t) {symbol : Symbol} {k : Keyword}
    (hk : symbol.keyword = some k) : s.Equipped g (k :: taken) (t.makeConstant g symbol) where
  shape := h.shape.trans (sameShape_makeConstant t g symbol)
  level := (level_modifyRealm t g (fun r => by split <;> rfl)
    (fun r => by split <;> rfl)).trans h.level
  constants := by
    have hold : ∀ name ∈ t.constantsAt (t.realmOf g),
        ∃ k' ∈ k :: taken, name.keyword = some k' := fun name hname =>
      (h.constants name hname).imp fun _ hk' => ⟨List.mem_cons_of_mem _ hk'.1, hk'.2⟩
    intro name hname
    rw [(sameShape_makeConstant t g symbol).realmOf, constantsAt_makeConstant] at hname
    split at hname
    · rcases List.mem_cons.mp hname with rfl | hname
      · exact ⟨k, List.mem_cons_self, hk⟩
      · exact hold name hname
    · exact hold name hname

/-! ### Making an engine -/

theorem bindConstant (h : s.Equipped g taken t) {k : Keyword} (hk : k ∉ taken) (v : Value) :
    (Engine.bindConstant g k v).Succeeds t fun _ u => s.Equipped g (k :: taken) u := by
  refine (h.intern k.spelling).bind fun symbol u ⟨⟨rule, hkeyword⟩, hu⟩ => ?_
  rw [Keyword.recognize?_fold] at hkeyword
  refine (hu.define (fun k' hk' heq => ?_) v).bind fun _ w hw => ?_
  · rw [hkeyword] at heq
    cases heq
    exact hk hk'
  · exact ⟨(), _, rfl, hw.makeConstant hkeyword⟩

theorem bindNative (hg : (s.frame g).outer = none) (h : s.Equipped g boundKeywords t)
    {name : String} (hname : Unclaimed name) (arity : Arity) (p : Primitive) :
    (Run.bindNative g name arity p).Succeeds t fun _ u => s.Equipped g boundKeywords u := by
  have hid : (Run.ofFresh Fresh.id).Succeeds t fun _ u => s.Equipped g boundKeywords u :=
    ⟨_, _, rfl, h.of_eq rfl rfl rfl⟩
  refine hid.bind fun id u hu => ?_
  -- the frame extends no other, so it is the global one of its chain
  have hglobal : u.global g = g := by
    refine global_of (P := (· = g)) (fun {i o} hi ho => ?_) rfl
    rw [hi, hu.shape.outer, hg] at ho
    cases ho
  have hread : (Run.global g).Succeeds u fun i w => i = g ∧ s.Equipped g boundKeywords w :=
    ⟨_, _, rfl, hglobal, hu⟩
  refine hread.bind fun i w ⟨hi, hw⟩ => ?_
  subst hi
  refine (hw.intern name).bind fun symbol x ⟨⟨rule, hkeyword⟩, hx⟩ => ?_
  exact hx.define (fun k hk => hkeyword ▸ hname rule k hk) _

theorem bindGroup (hg : (s.frame g).outer = none) (h : s.Equipped g boundKeywords t)
    (channel : Nat) (group : PrimitiveGroup) :
    (Run.bindGroup g channel group).Succeeds t fun _ u => s.Equipped g boundKeywords u := by
  have hentries : ∀ (ports : Nat) (marker : Symbol) (u : Store), s.Equipped g boundKeywords u →
      ((group.entries channel ports marker).forM fun x =>
        Run.bindNative g x.1 x.2.1 x.2.2).Succeeds u fun _ w => s.Equipped g boundKeywords w :=
    fun ports marker u hu => .forM (fun x hx w hw =>
      hw.bindNative hg (group.unclaimed channel ports marker x hx) x.2.1 x.2.2) hu
  cases group with
  | system =>
    have hports : (Run.update fun s => s.addPortTable).Succeeds t
        fun _ u => s.Equipped g boundKeywords u := .update (h.of_eq rfl rfl rfl)
    refine hports.bind fun ports u hu => ?_
    exact (hu.intern markerName).bind fun marker w hw => hentries ports marker w hw.2
  | _ => exact hentries 0 default t h

end Store.Equipped

namespace Engine

/-- An engine without an initial program can be made in any store.  It has a realm and a global
frame of its own; no other realm changes, and nothing else of frames and levels. -/
theorem create_eq_ok (a : Allowance) (caseRule : CaseRule) (maxDepth : Nat) (s : Store) :
    ∃ e t, create a ⟨caseRule, none, maxDepth⟩ s = (.ok e, t) ∧ e.global = s.frames.size ∧
      (s.addRealm caseRule maxDepth).2.SameShape t ∧
      t.level = (s.addRealm caseRule maxDepth).2.level := by
  let new := (s.addRealm caseRule maxDepth).2
  let g : FrameId := s.frames.size
  have hg : (new.frame g).outer = none := by rw [Store.frame_addRealm, if_pos rfl]
  have hnone : new.constantsAt (new.realmOf g) = [] := by
    rw [Store.realmOf_addRealm, if_pos rfl]
    simp [new, Store.constantsAt, Store.addRealm]
  have hstart : new.Equipped g [] new :=
    ⟨.refl new, rfl, by rw [hnone]; exact fun _ hn => absurd hn List.not_mem_nil⟩
  -- a realm, a channel, the two keywords, and the primitives
  have hrealm : (Run.update fun s => s.addRealm caseRule maxDepth).Succeeds s
      fun i t => i = g ∧ new.Equipped g [] t := .update ⟨rfl, hstart⟩
  have hchannel : ∀ t, new.Equipped g [] t →
      (Run.update fun s => s.addChannel).Succeeds t fun _ u => new.Equipped g [] u :=
    fun t ht => .update (ht.of_eq rfl rfl rfl)
  have hbare : (bare ⟨caseRule, none, maxDepth⟩).Succeeds s
      fun e t => e.global = g ∧ new.Equipped g boundKeywords t := by
    refine hrealm.bind fun i t h => ?_
    obtain ⟨rfl, ht⟩ := h
    refine (hchannel t ht).bind fun channel u hu => ?_
    refine (hu.bindConstant (by decide) .nil).bind fun _ w hw => ?_
    refine (hw.bindConstant (by decide) .t).bind fun _ x hx => ?_
    -- no primitive is named like a keyword, so none of them is refused
    have hgroups : (PrimitiveGroup.all.forM fun group => Run.bindGroup g channel group).Succeeds x
        fun _ y => new.Equipped g boundKeywords y :=
      .forM (fun group _ y hy => hy.bindGroup hg channel group) hx
    exact hgroups.bind fun _ y hy => ⟨_, y, rfl, rfl, hy⟩
  obtain ⟨e, t, hrun, he, ht⟩ := hbare
  exact ⟨e, t, (Run.bind_apply_ok hrun).trans rfl, he, ht.shape, ht.level⟩

end Engine

end PocketLisp
