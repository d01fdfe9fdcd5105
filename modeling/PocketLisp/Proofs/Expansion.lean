/-
PocketLisp/Proofs/Expansion.lean

What expansion results in, told by the content of forms.

Where expanders have no side effects, what becomes of a form depends neither
on the store in which it is expanded, nor on the allowance, nor on the numbers
of the objects in it.  `Expands` says what it is, from the outside inwards: a
macro call becomes what its expander makes of the argument forms and is
expanded again, and in a form that is no macro call the elements are expanded.

Main results: a form expands in one way only (`Expands.unique`), every run
that expands a form ends in that way, unless it is cut short (`run_expand`),
and if there is such a way, a large enough allowance is not used up
(`Expands.halts`).
-/
import PocketLisp.Proofs.Settling

namespace PocketLisp

/-! ### Expansion of contents -/

/-- What comes of one expansion: the content of a form, a failure, or no end. -/
inductive Unfolding where
  | form (v : Value)
  | failure
  | endless

/-- What is told by the content of a form, or by there being none. -/
def Unfolding.ofOption : Option Value → Unfolding
  | some v => .form v
  | none => .failure

/-- What an expander makes of the contents of argument forms. -/
abbrev Expander := List Value → Unfolding

namespace Value

/-- The symbol at the head of a form. -/
def head? : Value → Option Symbol
  | .cons _ a _ => a.symbol?
  | _ => none

/-- Whether a form is a macro call. -/
def isCall {α : Type} (macros : Symbol → Option α) (v : Value) : Bool :=
  (v.head?.bind macros).isSome

/-- What comes of a macro call when it is expanded once, if a form is one. -/
def unfolded? (macros : Symbol → Option Expander) : Value → Option Unfolding
  | .cons _ a d => (a.symbol?.bind macros).map fun f => d.listItems.toOption.elim .failure f
  | _ => none

/-- A list with other elements behind those that are kept. -/
def withElements (v : Value) (kept : Nat) (items : List Value) : Value :=
  (v.cars.take kept ++ items).foldr (fun a d => .cons 0 a d) v.finalTail

theorem unfolded?_eq_none_iff {macros : Symbol → Option Expander} {v : Value} :
    v.unfolded? macros = none ↔ v.isCall macros = false := by
  cases v with
  | cons id a d => rcases h : a.symbol?.bind macros <;> simp [unfolded?, isCall, head?, h]
  | _ => exact ⟨fun _ => rfl, fun _ => rfl⟩

theorem unfolded?_atom {macros : Symbol → Option Expander} {v : Value} (h : v.isCons = false) :
    v.unfolded? macros = none := by
  cases v with
  | cons id a d => cases h
  | _ => rfl

@[simp] theorem head?_bare (v : Value) : v.bare.head? = v.head? := by
  cases v with
  | cons id a d => exact symbol?_bare a
  | _ => rfl

theorem head?_congr {v w : Value} (h : w.bare = v.bare) : w.head? = v.head? := by
  rw [← head?_bare w, h, head?_bare]

@[simp] theorem isCall_bare {α : Type} (macros : Symbol → Option α) (v : Value) :
    v.bare.isCall macros = v.isCall macros := by
  simp only [isCall, head?_bare]

/-- The items of a list have the content that those of its content have. -/
theorem listItems_bare (v : Value) :
    v.bare.listItems.toOption = v.listItems.toOption.map (List.map bare) := by
  rw [listItems, listItems, isList_bare]
  split
  · exact congrArg some (items_bare v)
  · rfl

theorem unfolded?_cons (macros : Symbol → Option Expander) (id : ObjectId) (head : Symbol)
    (d : Value) : (cons id (symbol head) d).bare.unfolded? macros = (macros head).map fun f =>
      d.listItems.toOption.elim .failure fun args => f (args.map bare) := by
  have hunfold : (cons id (symbol head) d).bare.unfolded? macros =
      (macros head).map fun f => d.bare.listItems.toOption.elim .failure f := rfl
  rw [hunfold, listItems_bare]
  rcases d.listItems with - | args <;> rfl

/-- The content of a list with other elements. -/
theorem withElements_bare (v : Value) (kept : Nat) (items : List Value) :
    v.bare.withElements kept (items.map bare) =
      (v.cars.take kept ++ items).foldr (fun a d => .cons 0 a.bare d) v.finalTail.bare := by
  rw [withElements, cars_bare, finalTail_bare, ← List.map_take, ← List.map_append, List.foldr_map]

end Value

/-- Which content a form, or each of a list of forms, is expanded to; `none` is a failure. -/
inductive Expands (macros : Symbol → Option Expander) :
    {p : Part} → p.Result → Option p.Result → Prop
  | atom {v : Value} : v.isCons = false → Expands macros (p := .form) v (some v)
  | failure {v : Value} : v.unfolded? macros = some .failure → Expands macros (p := .form) v none
  | call {v w : Value} {r : Option Value} : v.unfolded? macros = some (.form w) →
      Expands macros (p := .form) w r → Expands macros (p := .form) v r
  | data {v : Value} : v.isCons = true → v.unfolded? macros = none → keptBehind v.head? = none →
      Expands macros (p := .form) v (some v)
  | elements {v : Value} {kept : Nat} {r : Option (List Value)} : v.isCons = true →
      v.unfolded? macros = none → keptBehind v.head? = some kept →
      Expands macros (p := .items) (v.cars.drop kept) r →
      Expands macros (p := .form) v (r.map (v.withElements kept))
  | none : Expands macros (p := .items) [] (some [])
  | fails {v : Value} {vs : List Value} : Expands macros (p := .form) v none →
      Expands macros (p := .items) (v :: vs) none
  | more {v w : Value} {vs : List Value} {r : Option (List Value)} :
      Expands macros (p := .form) v (some w) → Expands macros (p := .items) vs r →
      Expands macros (p := .items) (v :: vs) (r.map (w :: ·))

/-- Expansion has one result. -/
theorem Expands.unique {macros : Symbol → Option Expander} {p : Part} {x : p.Result}
    {r r' : Option p.Result} (h : Expands macros x r) (h' : Expands macros x r') : r = r' := by
  -- the content of a form tells which of these it is
  induction h with
  | atom hv => cases h' <;> simp_all [Value.unfolded?_atom]
  | failure hv => cases h' <;> simp_all [Value.unfolded?_atom]
  | call hv _ ih =>
    cases h' with
    | call hv' h' =>
      cases hv.symm.trans hv'
      exact ih h'
    | _ => simp_all [Value.unfolded?_atom]
  | data hcons hv hkept => cases h' <;> simp_all
  | elements hcons hv hkept _ ih =>
    cases h' with
    | elements _ _ hkept' h' =>
      cases hkept.symm.trans hkept'
      rw [ih h']
    | _ => simp_all
  | none => cases h'; rfl
  | fails hv ih =>
    -- an element fails, or all elements have a result
    cases h' with
    | fails => rfl
    | more h' => cases ih h'
  | more hv hvs ih ih' =>
    cases h' with
    | fails h' => cases ih h'
    | more h' hs' =>
      cases ih h'
      rw [ih' hs']

namespace Expands

variable {macros : Symbol → Option Expander}

/-- No forms are expanded to no forms. -/
theorem eq_nil {r : Option (List Value)} (h : Expands macros (p := .items) [] r) : r = some [] := by
  cases h
  rfl

theorem cons_eq {v : Value} {vs ws : List Value}
    (h : Expands macros (p := .items) (v :: vs) (some ws)) :
    ∃ w others, ws = w :: others ∧ Expands macros (p := .form) v (some w) ∧
      Expands macros (p := .items) vs (some others) := by
  generalize hr : some ws = r at h
  cases h with
  | fails => cases hr
  | @more _ w _ r hw hs =>
    rcases r with - | others
    · cases hr
    · exact ⟨w, others, Option.some.inj hr, hw, hs⟩

/-- Of forms that are expanded, the first one is. -/
theorem first {v : Value} {vs : List Value} {r : Option (List Value)}
    (h : Expands macros (p := .items) (v :: vs) r) : ∃ r', Expands macros (p := .form) v r' := by
  cases h with
  | fails hv | more hv => exact ⟨_, hv⟩

/-- The others are expanded, unless the first one fails. -/
theorem others {v w : Value} {vs : List Value} {r : Option (List Value)}
    (h : Expands macros (p := .items) (v :: vs) r) (hw : Expands macros (p := .form) v (some w)) :
    ∃ r', Expands macros (p := .items) vs r' := by
  cases h with
  | fails hv => cases hv.unique hw
  | more _ hs => exact ⟨_, hs⟩

theorem length_eq {vs ws : List Value} (h : Expands macros (p := .items) vs (some ws)) :
    ws.length = vs.length := by
  induction vs generalizing ws with
  | nil => cases h.eq_nil; rfl
  | cons v vs ih =>
    obtain ⟨w, others, rfl, -, hs⟩ := h.cons_eq
    exact congrArg Nat.succ (ih hs)

/-- Only a macro call is expanded to a symbol that it is not. -/
theorem symbol?_eq {v w : Value} (h : Expands macros (p := .form) v (some w))
    (hcall : v.isCall macros = false) : w.symbol? = v.symbol? := by
  have hunfold := Value.unfolded?_eq_none_iff.mpr hcall
  generalize hr : some w = r at h
  cases h with
  | atom => cases hr; rfl
  | failure hv => cases hunfold.symm.trans hv
  | call hv => cases hunfold.symm.trans hv
  | data => cases hr; rfl
  | @elements _ kept r hcons _ _ hs =>
    rcases r with - | ws
    · cases hr
    · cases hr
      cases v with
      | cons id a d =>
        have hlength := hs.length_eq
        -- the first element is kept or is the first of the others
        rcases kept with - | kept
        · obtain ⟨b, others, rfl⟩ := List.exists_cons_of_length_eq_add_one hlength
          rfl
        · rfl
      | _ => cases hcons

end Expands

/-! ### Expanders without side effects -/

/-- The macros of a frame have no side effects: whatever has been added to the store, an expander
only adds to it, and the content of the argument forms tells whether it makes a form of them and
with what content, whether it fails, or whether it goes on without end. -/
structure Store.PureExpanders (s : Store) (g : FrameId) (results : Nat → Expander) : Prop where
  ends : ∀ {head : Symbol} {index : Nat}, s.expander? g head = some index →
    ∀ (rounds calls : Nat) (args : List Value),
      Run.Ends s g (fun r => results index (args.map Value.bare) = .ofOption (r.map Value.bare))
        (Run.callClosure (run rounds calls) index args)
  finishes : ∀ {head : Symbol} {index : Nat}, s.expander? g head = some index →
    ∀ args : List Value, results index (args.map Value.bare) ≠ .endless → ∀ t, s.Grown t →
      ∃ rounds calls, (Run.callClosure (run rounds calls) index args t).1 ≠ .error .unfinished

/-- A call of an expander settles, if it is not told to go on without end. -/
theorem Store.PureExpanders.settles {s : Store} {g : FrameId} {results : Nat → Expander}
    (h : s.PureExpanders g results) {head : Symbol} {index : Nat}
    (hindex : s.expander? g head = some index) (args : List Value) :
    Run.Settles s g (results index (args.map Value.bare) ≠ .endless)
      (fun r => results index (args.map Value.bare) = .ofOption (r.map Value.bare))
      fun self _ => Run.callClosure self index args where
  ends := fun rounds calls _ => h.ends hindex rounds calls args
  halts := fun hargs t ht => by
    obtain ⟨rounds, calls, hfinished⟩ := h.finishes hindex args hargs t ht
    exact ⟨_, .of_finished (fun hself => Lockstep.callClosure hself index args) hfinished⟩

/-- What the macros of a frame do. -/
def Store.macros (s : Store) (g : FrameId) (results : Nat → Expander) (head : Symbol) :
    Option Expander :=
  (s.expander? g head).map results

section Soundness

open Run Run.Expansion

variable {s : Store} {g : FrameId} {results : Nat → Expander}

/-- What one expansion of a form comes to: no expansion, another form, or a failure. -/
def Unfolds (macros : Symbol → Option Expander) (form : Value) : Option (Option Value) → Prop
  | some none => form.bare.unfolded? macros = none
  | some (some next) => form.bare.unfolded? macros = some (.form next.bare)
  | none => form.bare.unfolded? macros = some .failure

theorem unfolded?_no_call {head : Symbol} (h : s.expander? g head = none) (id : ObjectId)
    (d : Value) : (Value.cons id (.symbol head) d).bare.unfolded? (s.macros g results) = none := by
  rw [Value.unfolded?_cons, Store.macros, h]
  rfl

/-- Of a macro call, what its expander makes of the argument forms. -/
theorem unfolded?_call {head : Symbol} {index : Nat} (h : s.expander? g head = some index)
    (id : ObjectId) (d : Value) :
    (Value.cons id (.symbol head) d).bare.unfolded? (s.macros g results) =
      some (d.listItems.toOption.elim .failure fun args =>
        results index (args.map Value.bare)) := by
  rw [Value.unfolded?_cons, Store.macros, h]
  rfl

/-- A large enough allowance is enough to expand a form once, unless that has no end. -/
theorem once?_settles (hg : s.HasGlobal g) (hpure : s.PureExpanders g results) (form : Value) :
    Settles s g (form.bare.unfolded? (s.macros g results) ≠ some .endless)
      (Unfolds (s.macros g results) form) fun self _ => once? self form g := by
  -- only a list with a symbol at its head can be a macro call
  cases form with
  | cons id a d =>
    cases a with
    | symbol head =>
      refine (Settles.read (P := fun r => r = some (s.expander? g head)) ?_).bind (A := True)
        (fun _ => trivial) ?_ (by rintro ⟨⟩)
      · exact fun t ht => congrArg some (ht.expander? hg head)
      · intro expander hexpander
        cases hexpander
        rcases h : s.expander? g head with - | index
        · exact Settles.pure (unfolded?_no_call h id d)
        · have hunfold :
              (Value.cons id (.symbol head) d).bare.unfolded? (s.macros g results) = some _ :=
            unfolded?_call h id d
          refine (Settles.ofExcept (P := fun r => r = d.listItems.toOption) rfl).bind (A := True)
            (fun _ => trivial) ?_ ?_
          · -- the arguments are handed to the expander
            intro args hargs
            rw [← hargs] at hunfold
            refine (hpure.settles h args).bind (fun hform hendless => ?_) ?_ ?_
            · exact hform (hunfold.trans (congrArg some hendless))
            · exact fun next hnext => Settles.pure (hunfold.trans (congrArg some hnext))
            · exact fun hnone => hunfold.trans (congrArg some hnone)
          · -- a macro call with a dotted tail fails
            intro hargs
            rw [← hargs] at hunfold
            exact hunfold
    | _ => exact Settles.pure rfl
  | _ => exact Settles.pure rfl

/-- Whatever is made of a form that is no macro call any more is made of the form itself. -/
theorem head_ends (hg : s.HasGlobal g) (hpure : s.PureExpanders g results) (rounds calls : Nat)
    (times : Nat) (form : Value) :
    Ends s g
      (fun
        | some next => next.bare.unfolded? (s.macros g results) = none ∧
            ∀ r, Expands (s.macros g results) (p := .form) next.bare r →
              Expands (s.macros g results) (p := .form) form.bare r
        | none => Expands (s.macros g results) (p := .form) form.bare none)
      (head (run rounds calls) g times form) := by
  -- on the rounds: what the expansion expands to is what the form does
  induction times generalizing form with
  | zero => exact Ends.unfinished
  | succ times ih =>
    refine ((once?_settles hg hpure form).ends rounds calls 0).bind ?_ ?_
    · rintro (- | next) hnext
      · exact Ends.pure ⟨hnext, fun r hr => hr⟩
      · refine (ih next).mono ?_
        rintro (- | last) hlast
        · exact .call hnext hlast
        · exact ⟨hlast.1, fun r hr => .call hnext (hlast.2 r hr)⟩
    · exact fun hnone => .failure hnone

variable {macros : Symbol → Option Expander} {self : Recur}

theorem mapM_ends
    (h : ∀ form, Ends s g (fun r => Expands macros (p := .form) form.bare (r.map Value.bare))
      (self (.expand form g))) (items : List Value) :
    Ends s g (fun r => Expands macros (p := .items) (items.map Value.bare)
        (r.map (List.map Value.bare)))
      (items.mapM fun item => self (.expand item g)) := by
  induction items with
  | nil => exact Ends.pure .none
  | cons item items ih =>
    rw [List.mapM_cons]
    refine (h item).bind (fun v hv => ?_) fun hfails => .fails hfails
    exact ih.bind (fun vs hvs => Ends.pure (.more hv hvs)) fun hfails => .more hv hfails

/-- The elements of a list are expanded as their contents say, if forms are. -/
theorem elements_ends
    (h : ∀ form, Ends s g (fun r => Expands macros (p := .form) form.bare (r.map Value.bare))
      (self (.expand form g))) {id : ObjectId} {first rest : Value}
    (hcall : (Value.cons id first rest).bare.unfolded? macros = none) :
    Ends s g (fun r => Expands macros (p := .form) (Value.cons id first rest).bare
        (r.map Value.bare))
      (Run.Expansion.elements self g (.cons id first rest) first) := by
  have hhead : (Value.cons id first rest).bare.head? = first.symbol? := Value.head?_bare _
  rcases hkept : keptBehind first.symbol? with - | kept
  · -- the list is data
    simp only [Run.Expansion.elements, hkept]
    exact Ends.pure (.data rfl hcall (hhead ▸ hkept))
  · simp only [Run.Expansion.elements, hkept]
    -- the kept elements stand in front of those that are expanded
    have hdrop : (Value.cons id first rest).bare.cars.drop kept =
        ((Value.cons id first rest).cars.drop kept).map Value.bare := by
      rw [Value.cars_bare, List.map_drop]
    have hexpands : ∀ {r}, Expands macros (p := .items)
        (((Value.cons id first rest).cars.drop kept).map Value.bare) r → _ := fun {r} hr =>
      Expands.elements rfl hcall (hhead ▸ hkept) (hdrop ▸ hr)
    refine (mapM_ends h _).bind (fun vs hvs => Ends.listOnto fun v hv => ?_) fun hfails => ?_
    · rw [Option.map_some, hv, ← Value.withElements_bare]
      exact hexpands hvs
    · exact hexpands hfails

/-- A run that expands a form ends as its content says, or is cut short. -/
theorem run_expand (hg : s.HasGlobal g) (hpure : s.PureExpanders g results) (rounds calls : Nat)
    (form : Value) :
    Ends s g (fun r => Expands (s.macros g results) (p := .form) form.bare (r.map Value.bare))
      (run rounds calls (.expand form g)) := by
  -- on the calls; the head is expanded first, and then the elements of what that gives
  induction calls generalizing form with
  | zero => exact Ends.unfinished
  | succ calls ih =>
    refine Ends.nested (fun _ => rfl) ?_
    show Ends s g _ (wholly (run rounds calls) rounds form g)
    cases form with
    | cons id a d =>
      refine (head_ends hg hpure rounds calls rounds (.cons id a d)).bind ?_ fun hfails => hfails
      rintro next ⟨hcall, hnext⟩
      cases next with
      | cons id' first rest => exact (elements_ends ih hcall).mono fun r hr => hnext _ hr
      | _ => exact Ends.pure (hnext _ (.atom rfl))
    | _ => exact Ends.pure (.atom rfl)

end Soundness

/-! ### Expansion comes to an end -/

section Completeness

open Run Run.Expansion

variable {s t : Store} {g : FrameId} {results : Nat → Expander}

/-- Expands the elements of a form that is no macro call any more. -/
def expandElements (self : Recur) (g : FrameId) : Value → Run Value
  | .cons id first rest => Run.Expansion.elements self g (.cons id first rest) first
  | v => pure v

theorem wholly_of_isCons {form : Value} (h : form.isCons = true) (self : Recur) (rounds : Nat) :
    wholly self rounds form g = head self g rounds form >>= expandElements self g := by
  rw [wholly, if_pos h]
  refine congrArg _ (funext fun v => ?_)
  cases v <;> rfl

/-- A form is expanded once, and what it becomes from there on. -/
theorem head_bind_succ (self : Recur) (times : Nat) (form : Value) (k : Value → Run Value) :
    head self g (times + 1) form >>= k = once? self form g >>= fun
      | none => k form
      | some next => head self g times next >>= k := by
  rw [head, bind_assoc]
  refine congrArg _ (funext fun next => ?_)
  cases next <;> rfl

/-- A form, or each of a list of forms, with this content is expanded with a large enough
allowance. -/
def ExpansionHalts (s : Store) (g : FrameId) : (p : Part) → p.Result → Prop
  | .form, x => ∀ (form : Value), form.bare = x → ∀ t, s.Grown t →
      Halts (fun self times => head self g times form >>= expandElements self g) t
  | .items, xs => ∀ (items : List Value), items.map Value.bare = xs → ∀ t, s.Grown t →
      Halts (fun self _ => items.mapM fun item => self (.expand item g)) t

/-- The call that expands a form. -/
theorem ExpansionHalts.call {x : Value} (h : ExpansionHalts s g .form x) {form : Value}
    (hform : form.bare = x) (ht : s.Grown t) : Halts (fun self _ => self (.expand form g)) t := by
  have hwholly : ∀ u, s.Grown u → Halts (fun self times => wholly self times form g) u := by
    intro u hu
    rcases hcons : form.isCons with - | -
    · have hatom : ∀ (self : Recur) times, wholly self times form g = pure form := fun self times =>
        if_neg (by simp [hcons])
      simp only [hatom]
      exact ⟨_, .ok rfl⟩
    · simp only [wholly_of_isCons hcons]
      exact h form hform u hu
  exact .call (fun _ => hwholly t ht) fun env _ => hwholly _ (ht.deepen env)

/-- A form is expanded once, and then it is no macro call or its expansion is expanded. -/
theorem ExpansionHalts.of_once? (hg : s.HasGlobal g) (hpure : s.PureExpanders g results) {x : Value}
    (hendless : x.unfolded? (s.macros g results) ≠ some .endless)
    (hdone : x.unfolded? (s.macros g results) = none → ∀ form : Value, form.bare = x →
      ∀ t, s.Grown t → Halts (fun self _ => expandElements self g form) t)
    (hcall : ∀ w, x.unfolded? (s.macros g results) = some (.form w) →
      ExpansionHalts s g .form w) : ExpansionHalts s g .form x := by
  rintro form rfl t ht
  refine .later ?_
  simp only [head_bind_succ]
  have honce := once?_settles hg hpure form
  refine (honce.halts hendless t ht).bind honce.ends ht fun next u hnext hu => ?_
  cases next with
  | none => exact hdone hnext form rfl u hu
  | some next => exact hcall _ hnext next rfl u hu

/-- The elements of a list are expanded one after the other. -/
theorem ExpansionHalts.elements {v : Value} {kept : Nat} (hkept : keptBehind v.head? = some kept)
    (h : ExpansionHalts s g .items (v.cars.drop kept))
    (hends : ∀ (rounds calls : Nat) (items : List Value),
      Ends s g (fun _ => True) (items.mapM fun item => run rounds calls (.expand item g)))
    {form : Value} (hform : form.bare = v) (ht : s.Grown t) :
    Halts (fun self _ => expandElements self g form) t := by
  subst hform
  cases form with
  | cons id first rest =>
    rw [Value.head?_bare] at hkept
    have hkept' : keptBehind first.symbol? = some kept := hkept
    simp only [expandElements, Run.Expansion.elements, hkept']
    -- the elements of the content are the contents of the elements
    have hitems : (((Value.cons id first rest).cars.drop kept).map Value.bare) =
        (Value.cons id first rest).bare.cars.drop kept := by
      rw [Value.cars_bare, List.map_drop]
    exact (h _ hitems t ht).bind (fun rounds calls _ => hends rounds calls _) ht
      fun _ _ _ _ => ⟨_, .ok rfl⟩
  | _ => exact ⟨_, .ok rfl⟩

/-- What has a result comes to it, with a large enough allowance. -/
theorem Expands.expansionHalts (hg : s.HasGlobal g) (hpure : s.PureExpanders g results) {p : Part}
    {x : p.Result} {r : Option p.Result} (h : Expands (s.macros g results) x r) :
    ExpansionHalts s g p x := by
  have hends : ∀ (rounds calls : Nat) (items : List Value),
      Ends s g (fun _ => True) (items.mapM fun item => run rounds calls (.expand item g)) :=
    fun rounds calls items =>
      (mapM_ends (run_expand hg hpure rounds calls) items).mono fun _ _ => trivial
  -- on how the form expands: what comes of its parts is reached with a large enough allowance
  induction h with
  | atom hv =>
    -- an atom, a failure, and a macro call
    have hunfold : Value.unfolded? (s.macros g results) _ = Option.none := Value.unfolded?_atom hv
    refine .of_once? hg hpure (by simp [hunfold]) ?_ (by simp [hunfold])
    rintro - form rfl t -
    cases form with
    | cons id a d => cases hv
    | _ => exact ⟨_, .ok rfl⟩
  | failure hv => exact .of_once? hg hpure (by simp [hv]) (by simp [hv]) (by simp [hv])
  | call hv _ ih =>
    refine .of_once? hg hpure (by simp [hv]) (by simp [hv]) fun w hw => ?_
    cases hv.symm.trans hw
    exact ih
  | data _ hv hkept =>
    -- a list that is no macro call
    refine .of_once? hg hpure (by simp [hv]) (fun _ => ?_) (by simp [hv])
    rintro form rfl t -
    cases form with
    | cons id first rest =>
      rw [Value.head?_bare] at hkept
      have hkept' : keptBehind first.symbol? = .none := hkept
      simp only [expandElements, Run.Expansion.elements, hkept']
      exact ⟨_, .ok rfl⟩
    | _ => exact ⟨_, .ok rfl⟩
  | elements _ hv hkept _ ih =>
    exact .of_once? hg hpure (by simp [hv])
      (fun _ form hform t ht => ih.elements hkept hends hform ht) (by simp [hv])
  | none =>
    rintro items hitems t -
    rw [List.map_eq_nil_iff.mp hitems]
    exact ⟨_, .ok rfl⟩
  | fails hv ih =>
    intro items hitems t ht
    obtain ⟨form, others, rfl, hform, -⟩ := List.map_eq_cons_iff.mp hitems
    simp only [List.mapM_cons]
    refine (ih.call hform ht).bind (fun rounds calls _ => run_expand hg hpure rounds calls form) ht
      fun w _ hw _ => ?_
    -- an element that fails has no other result
    rw [hform] at hw
    cases hv.unique hw
  | more hv _ ih ih' =>
    -- the first element is expanded, and then the others
    intro items hitems t ht
    obtain ⟨form, others, rfl, hform, hothers⟩ := List.map_eq_cons_iff.mp hitems
    simp only [List.mapM_cons]
    refine (ih.call hform ht).bind (fun rounds calls _ => run_expand hg hpure rounds calls form) ht
      fun w u _ hu => ?_
    exact (ih' others hothers u hu).bind (fun rounds calls _ => hends rounds calls others) hu
      fun _ _ _ _ => ⟨_, .ok rfl⟩

/-- A form whose content has a result is expanded with a large enough allowance. -/
theorem Expands.halts (hg : s.HasGlobal g) (hpure : s.PureExpanders g results) {form : Value}
    {r : Option Value} (h : Expands (s.macros g results) (p := .form) form.bare r)
    (ht : s.Grown t) : Halts (fun self _ => self (.expand form g)) t :=
  (h.expansionHalts hg hpure).call rfl ht

end Completeness

end PocketLisp
