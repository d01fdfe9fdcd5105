/-
PocketLisp/Proofs/NormalForm.lean

Expansion leaves no macro calls behind, with one exception.

A form is `Normal` if no list in it that is code is a macro call.  Expansion
looks at the head of a list before it expands the elements.  So where the first
element of a list is a macro call itself and becomes the name of a macro, the
list has become a macro call that nobody looks at again
(`expansion_leaves_call`).  `expandStrictly` ends unfinished there, and does
what expansion does everywhere else.

Main result: where this does not happen, and no macro is added meanwhile, the
result of expansion is normal, and to expand it again makes no difference
(`expansion_settles`).
-/
import PocketLisp.Proofs.Expansion
import PocketLisp.Proofs.Later

namespace PocketLisp

variable {α β : Type}

/-! ### Forms without macro calls -/

namespace Value

/-- No list in a form that is code is a macro call: neither the form, nor any element behind those
that expansion leaves alone. -/
inductive Normal (macros : Symbol → Option α) : Value → Prop
  | atom {v : Value} : v.isCons = false → Normal macros v
  | data {v : Value} : v.isCall macros = false → keptBehind v.head? = none → Normal macros v
  | elements {v : Value} {kept : Nat} : v.isCall macros = false → keptBehind v.head? = some kept →
      (∀ w ∈ v.cars.drop kept, Normal macros w) → Normal macros v

theorem isCall_of_macros {macros : Symbol → Option α} {macros' : Symbol → Option β}
    (h : ∀ symbol, (macros symbol).isSome = (macros' symbol).isSome) (v : Value) :
    v.isCall macros = v.isCall macros' := by
  rw [isCall, isCall]
  rcases v.head? with - | symbol
  · rfl
  · exact h symbol

/-- A normal form is no macro call. -/
theorem Normal.isCall {macros : Symbol → Option α} {v : Value} (h : v.Normal macros) :
    v.isCall macros = false := by
  cases h with
  | atom hv =>
    cases v with
    | cons id a d => cases hv
    | _ => rfl
  | data hv | elements hv => exact hv

/-! ### Elements and tails -/

theorem tailItems_eq (v : Value) : v.tailItems = v.cars ++ v.finalTail.tailItems := by
  induction v with
  | cons id a d _ ih =>
    rw [tailItems, ih]
    rfl
  | _ => rfl

/-- The items of a list are the first components of its cells, and a dotted tail. -/
theorem items_eq {v : Value} (h : v.isList = true) : v.items = v.cars ++ v.finalTail.tailItems := by
  rw [← tailItems_eq]
  cases v with
  | cons id a d => rw [items_cons, tailItems]
  | nil => rfl
  | _ => cases h

/-! ### Lists that are put together again -/

theorem exists_chain_cons (next : ObjectId) (a : Value) (items : List Value) (tail : Value) :
    ∃ id n, chain next (a :: items).reverse tail =
      (.cons id a (chain next items.reverse tail).1, n) := by
  have happend : ∀ reversed next tail, ∃ id n, chain next (reversed ++ [a]) tail =
      (.cons id a (chain next reversed tail).1, n) := by
    intro reversed
    induction reversed with
    | nil => exact fun next tail => ⟨next, next + 1, rfl⟩
    | cons v reversed ih => exact fun next tail => ih (next + 1) (.cons next v tail)
  rw [List.reverse_cons]
  exact happend items.reverse next tail

theorem cars_chain (next : ObjectId) (items : List Value) (tail : Value) :
    (chain next items.reverse tail).1.cars = items ++ tail.cars := by
  induction items with
  | nil => rfl
  | cons a items ih =>
    obtain ⟨id, n, hchain⟩ := exists_chain_cons next a items tail
    rw [hchain]
    exact congrArg (List.cons a) ih

theorem finalTail_chain (next : ObjectId) (items : List Value) (tail : Value) :
    (chain next items.reverse tail).1.finalTail = tail.finalTail := by
  induction items with
  | nil => rfl
  | cons a items ih =>
    obtain ⟨id, n, hchain⟩ := exists_chain_cons next a items tail
    rw [hchain]
    exact ih

/-- A list of new cells has the elements and the tail that it was made of. -/
theorem chain_parts (next : ObjectId) (items : List Value) {tail : Value}
    (htail : tail.isCons = false) :
    (chain next items.reverse tail).1.cars = items ∧
      (chain next items.reverse tail).1.finalTail = tail := by
  rw [cars_chain, finalTail_chain]
  cases tail with
  | cons id a d => cases htail
  | _ => exact ⟨List.append_nil items, rfl⟩

/-- A list has the content of the list of its elements and its tail. -/
theorem bare_of_cars (v : Value) (items : List Value) (h : items.map bare = v.cars.map bare) :
    items.foldr (fun a d => .cons 0 a.bare d) v.finalTail.bare = v.bare := by
  have hfold : ∀ vs : List Value, ∀ tail, vs.foldr (fun a d => Value.cons 0 a.bare d) tail =
      (vs.map bare).foldr (Value.cons 0) tail := fun vs tail => List.foldr_map.symm
  rw [hfold, h, ← hfold]
  clear h
  induction v with
  | cons id a d _ ih => exact congrArg (Value.cons 0 a.bare) ih
  | _ => rfl

theorem isCons_finalTail (v : Value) : v.finalTail.isCons = false := by
  induction v with
  | cons id a d _ ih => exact ih
  | _ => rfl

theorem head?_eq_of_cars {v : Value} (h : v.isCons = true) :
    v.head? = v.cars.head?.bind symbol? := by
  cases v with
  | cons id a d => rfl
  | _ => cases h

/-- The elements of a list that is put together of kept and of other elements: unless the head is
kept, more of the others may be left alone than before, but no kept one is expanded. -/
theorem mem_of_mem_drop_cars {form v : Value} {kept kept' : Nat} {vs : List Value}
    (hform : form.isCons = true) (hv : v.isCons = true)
    (hcars : v.cars = form.cars.take kept ++ vs) (hkept : keptBehind form.head? = some kept)
    (hkept' : keptBehind v.head? = some kept') : ∀ w ∈ v.cars.drop kept', w ∈ vs := by
  intro w hw
  cases kept with
  | zero =>
    rw [hcars] at hw
    exact List.mem_of_mem_drop hw
  | succ k =>
    -- with a head kept, the form and its expansion have one head and keep as many elements
    have hhead : v.head? = form.head? := by
      rw [head?_eq_of_cars hv, head?_eq_of_cars hform, hcars]
      cases form with
      | cons id a d => rfl
      | _ => cases hform
    rw [hhead, hkept] at hkept'
    cases hkept'
    rw [hcars, List.drop_append, List.drop_eq_nil_of_le (List.length_take_le ..),
      List.nil_append] at hw
    exact List.mem_of_mem_drop hw

end Value

/-! ### Expansion that looks twice -/

namespace Run.Expansion

/-- Expands the elements of a list as `elements` does, but ends unfinished if that makes a macro
call of the list. -/
def elementsStrictly (expand : Value → Run Value) (env : FrameId) (form first : Value) :
    Run Value :=
  match keptBehind first.symbol? with
  | none => return form
  | some kept => do
    let items := form.cars
    let expanded ← (items.drop kept).mapM expand
    let list ← Fresh.listOnto (items.take kept ++ expanded) form.finalTail
    if ← read fun s => list.isCall (s.expander? env) then unfinished else return list

end Run.Expansion

/-- Expands all macro calls in a form as `run` does, but ends unfinished where a list becomes a
macro call when its elements are expanded. -/
def expandStrictly (rounds : Nat) (env : FrameId) : (calls : Nat) → Value → Run Value
  | 0, _ => Run.unfinished
  | calls + 1, form => (Call.expand form env).nested <|
    if form.isCons then do
      let form ← Run.Expansion.head (run rounds calls) env rounds form
      match form with
      | .cons _ first _ =>
        Run.Expansion.elementsStrictly (expandStrictly rounds env calls) env form first
      | _ => return form
    else return form

/-- The first run ends unfinished, or the two do the same. -/
def OrUnfinished (m m' : Run α) : Prop := ∀ s, (m s).1 = .error .unfinished ∨ m s = m' s

namespace OrUnfinished

protected theorem refl (m : Run α) : OrUnfinished m m := fun _ => .inr rfl

protected theorem bind {m m' : Run α} {k k' : α → Run β} (h : OrUnfinished m m')
    (hk : ∀ a, OrUnfinished (k a) (k' a)) : OrUnfinished (m >>= k) (m' >>= k') := by
  intro s
  rw [Run.bind_apply, Run.bind_apply]
  rcases h s with hm | hm
  · rcases hr : m s with ⟨e | a, t⟩ <;> rw [hr] at hm <;> cases hm
    exact .inl rfl
  · rw [hm]
    rcases m' s with ⟨e | a, t⟩
    · exact .inr rfl
    · exact hk a t

protected theorem mapM {f f' : α → Run β} (h : ∀ a, OrUnfinished (f a) (f' a)) (xs : List α) :
    OrUnfinished (xs.mapM f) (xs.mapM f') := by
  induction xs with
  | nil => exact .refl _
  | cons x xs ih =>
    rw [List.mapM_cons, List.mapM_cons]
    exact (h x).bind fun _ => ih.bind fun _ => .refl _

/-- To look at a result takes nothing away from it, unless it is found to be bad. -/
theorem check (m : Run α) (bad : α → Store → Bool) :
    OrUnfinished (m >>= fun a => Run.read (bad a) >>= fun b =>
      if b then Run.unfinished else pure a) m := by
  intro s
  rw [Run.bind_apply]
  rcases m s with ⟨e | a, t⟩
  · exact .inr rfl
  · dsimp only
    rw [Run.bind_apply_ok (Run.read_apply _ t)]
    split
    · exact .inl rfl
    · exact .inr rfl

protected theorem nested {m m' : Run α} (h : OrUnfinished m m') (c : Call α) :
    OrUnfinished (c.nested m) (c.nested m') := by
  intro s
  unfold Call.nested
  split
  · exact h s
  · next env _ =>
    split
    · exact .inr rfl
    · rcases h (s.deepen env) with hm | hm
      · exact .inl hm
      · exact .inr (by rw [hm])

/-- A result of the first run is one of the second. -/
theorem eq_of_ok {m m' : Run α} (h : OrUnfinished m m') {s t : Store} {a : α}
    (hm : m s = (.ok a, t)) : m' s = (.ok a, t) := by
  rcases h s with hfree | heq
  · rw [hm] at hfree
    cases hfree
  · exact heq ▸ hm

theorem elements {expand : Value → Run Value} {self : Recur} {env : FrameId}
    (h : ∀ form, OrUnfinished (expand form) (self (.expand form env))) (form first : Value) :
    OrUnfinished (Run.Expansion.elementsStrictly expand env form first)
      (Run.Expansion.elements self env form first) := by
  cases hkept : keptBehind first.symbol? with
  | none =>
    simp only [Run.Expansion.elementsStrictly, Run.Expansion.elements, hkept]
    exact .refl _
  | some kept =>
    simp only [Run.Expansion.elementsStrictly, Run.Expansion.elements, hkept]
    exact (OrUnfinished.mapM h _).bind fun expanded => OrUnfinished.check _ _

end OrUnfinished

/-- Expansion that looks twice does what expansion does, or ends unfinished. -/
theorem expandStrictly_or_unfinished (rounds : Nat) (env : FrameId) (calls : Nat) (form : Value) :
    OrUnfinished (expandStrictly rounds env calls form) (run rounds calls (.expand form env)) := by
  induction calls generalizing form with
  | zero => exact .refl _
  | succ calls ih =>
    refine OrUnfinished.nested ?_ _
    show OrUnfinished _ (Run.Expansion.wholly (run rounds calls) rounds form env)
    unfold Run.Expansion.wholly
    split
    · refine (OrUnfinished.refl _).bind fun form => ?_
      cases form with
      | cons id first rest => exact OrUnfinished.elements ih _ _
      | _ => exact .refl _
    · exact .refl _

/-! ### Heads that are no macro calls -/

section Head

variable {env : FrameId} {self : Recur} {s t : Store} {v : Value}

/-- What is no macro call is not expanded. -/
theorem once?_of_isCall (self : Recur) (h : v.isCall (s.expander? env) = false) :
    Run.Expansion.once? self v env s = (.ok none, s) := by
  cases v with
  | cons id a d =>
    cases a with
    | symbol head =>
      have hnone : s.expander? env head = none := by
        simpa [Value.isCall, Value.head?, Value.symbol?] using h
      rw [Run.Expansion.once?, Run.bind_apply_ok (Run.read_apply _ s), hnone]
      rfl
    | _ => rfl
  | _ => rfl

/-- What is not expanded is no macro call. -/
theorem isCall_of_once? (h : Run.Expansion.once? self v env s = (.ok none, t)) :
    t = s ∧ v.isCall (s.expander? env) = false := by
  cases v with
  | cons id a d =>
    cases a with
    | symbol head =>
      rw [Run.Expansion.once?, Run.bind_apply_ok (Run.read_apply _ s)] at h
      -- one step leaves alone a list whose head names no macro, and no other
      rcases hx : s.expander? env head with - | expander <;> rw [hx] at h
      · cases h
        exact ⟨rfl, by simp [Value.isCall, Value.head?, Value.symbol?, hx]⟩
      · obtain ⟨args, t', -, h⟩ := Run.bind_eq_ok h
        obtain ⟨w, t'', -, h⟩ := Run.bind_eq_ok h
        cases h
    | _ => cases h; exact ⟨rfl, rfl⟩
  | _ => cases h; exact ⟨rfl, rfl⟩

/-- The form that a form is expanded to is no macro call. -/
theorem isCall_of_head {rounds : Nat} {form : Value}
    (h : Run.Expansion.head self env rounds form s = (.ok v, t)) :
    0 < rounds ∧ v.isCall (t.expander? env) = false := by
  induction rounds generalizing form s with
  | zero => cases h
  | succ n ih =>
    obtain ⟨next, u, honce, h⟩ := Run.bind_eq_ok h
    refine ⟨Nat.succ_pos n, ?_⟩
    cases next with
    | none =>
      cases h
      obtain ⟨rfl, hcall⟩ := isCall_of_once? honce
      exact hcall
    | some next => exact (ih h).2

/-- A list that is no macro call is expanded by its elements. -/
theorem wholly_of_isCall {id : ObjectId} {first rest : Value} {n : Nat}
    (h : (Value.cons id first rest).isCall (s.expander? env) = false) :
    Run.Expansion.wholly self (n + 1) (.cons id first rest) env s =
      Run.Expansion.elements self env (.cons id first rest) first s := by
  have hhead : Run.Expansion.head self env (n + 1) (.cons id first rest) s =
      (.ok (.cons id first rest), s) := by
    rw [Run.Expansion.head, Run.bind_apply_ok (once?_of_isCall _ h)]
    rfl
  exact Run.bind_apply_ok hhead

end Head

/-! ### Expanding again -/

/-- The symbols that name macros in a frame are those that do so here. -/
def Store.Names (s : Store) (env : FrameId) (macros : Symbol → Option α) : Prop :=
  ∀ symbol, (s.expander? env symbol).isSome = (macros symbol).isSome

/-- To expand a form makes no difference, in any store with these macros and with so much room. -/
def Value.Settles (macros : Symbol → Option α) (env : FrameId) (rounds calls room : Nat)
    (v : Value) : Prop :=
  ∀ u : Store, u.Names env macros → room ≤ u.room env →
    ∃ w t, run rounds calls (.expand v env) u = (.ok w, t) ∧ w.bare = v.bare ∧ t.frames = u.frames

section Again

variable {macros : Symbol → Option α} {env : FrameId} {rounds calls room : Nat} {s t u : Store}
  {v : Value}

theorem Store.Names.of_frames (hs : s.Names env macros) (h : t.frames = s.frames) :
    t.Names env macros := by
  intro symbol
  rw [← hs symbol]
  simp only [expander?, chain, frame, h]

/-- Macros that are the same at the start and at the end are the same in between. -/
theorem Store.Names.between (hs : s.Names env macros) (ht : t.Names env macros) (h : s.Later u)
    (h' : u.Later t) : u.Names env macros := by
  intro symbol
  refine Bool.eq_iff_iff.mpr ⟨fun hu => ?_, fun hm => ?_⟩
  · rw [← ht symbol]
    exact h'.isSome_expander? hu
  · rw [← hs symbol] at hm
    exact h.isSome_expander? hm

theorem Store.room_of_frames (h : t.frames = s.frames) (hlevel : t.level = s.level) :
    t.room env = s.room env := by
  simp only [room, realmOf, frame, h, hlevel]

/-- What is no list stands for itself. -/
theorem expand_atom (hv : v.isCons = false) (u : Store) :
    run rounds (calls + 1) (.expand v env) u = (.ok v, u) := by
  cases v with
  | cons id a d => cases hv
  | _ => rfl

theorem settles_atom (hv : v.isCons = false) : v.Settles macros env rounds (calls + 1) room :=
  fun u _ _ => ⟨v, u, expand_atom hv u, rfl, rfl⟩

/-- Forms whose content expansion keeps, one after the other, while a condition on the store
lasts. -/
theorem mapM_expand {I : Store → Prop} {vs : List Value}
    (h : ∀ v ∈ vs, ∀ t, I t → ∃ w t', run rounds calls (.expand v env) t = (.ok w, t') ∧
      w.bare = v.bare ∧ I t') (hu : I u) :
    ∃ ws t, vs.mapM (fun v => run rounds calls (.expand v env)) u = (.ok ws, t) ∧
      ws.map Value.bare = vs.map Value.bare ∧ I t := by
  induction vs generalizing u with
  | nil => exact ⟨[], u, rfl, rfl, hu⟩
  | cons v vs ih =>
    obtain ⟨hv, hvs⟩ := List.forall_mem_cons.mp h
    obtain ⟨w, u', hfirst, hbare, hu'⟩ := hv u hu
    obtain ⟨ws, t, hothers, hbares, ht⟩ := ih hvs hu'
    refine ⟨w :: ws, t, ?_, ?_, ht⟩
    · rw [List.mapM_cons, Run.bind_apply_ok hfirst, Run.bind_apply_ok hothers]
      rfl
    · rw [List.map_cons, List.map_cons, hbare, hbares]

/-- Expansion keeps the content of a list that is no macro call if it keeps that of the elements,
one step deeper, while a condition on the store lasts. -/
theorem expand_list {I : Store → Prop} (hv : v.isCons = true)
    (hcall : v.isCall (u.expander? env) = false) (hrounds : 0 < rounds)
    (hdeep : (u.level (u.realmOf env)).HasRoom) (hstart : I (u.deepen env))
    (hnext : ∀ t n, I t → I { t with nextId := n })
    (h : ∀ kept, keptBehind v.head? = some kept → ∀ w ∈ v.cars.drop kept, ∀ t, I t →
      ∃ w' t', run rounds calls (.expand w env) t = (.ok w', t') ∧ w'.bare = w.bare ∧ I t') :
    ∃ w t, run rounds (calls + 1) (.expand v env) u = (.ok w, t.riseIn (u.realmOf env)) ∧
      w.bare = v.bare ∧ I t := by
  obtain ⟨n, rfl⟩ := Nat.exists_eq_add_one.mpr hrounds
  have hfault : u.depthFault? env = none := Store.depthFault?_eq_none_iff.mpr hdeep
  have hnot : v.isCall ((u.deepen env).expander? env) = false := hcall
  cases v with
  | cons id first rest =>
    -- a list that is no call goes straight to its elements
    have hbody : ∃ w t, Run.Expansion.wholly (run (n + 1) calls) (n + 1) (.cons id first rest) env
        (u.deepen env) = (.ok w, t) ∧ w.bare = (Value.cons id first rest).bare ∧ I t := by
      rw [wholly_of_isCall hnot]
      cases hkept : keptBehind first.symbol? with
      | none =>
        simp only [Run.Expansion.elements, hkept]
        exact ⟨_, _, rfl, rfl, hstart⟩
      | some kept =>
        obtain ⟨ws, t, helements, hbares, ht⟩ := mapM_expand (h kept hkept) hstart
        simp only [Run.Expansion.elements, hkept]
        rw [Run.bind_apply_ok helements]
        refine ⟨_, _, rfl, ?_, hnext t _ ht⟩
        refine (Value.bare_chain_reverse _ _ _).trans (Value.bare_of_cars _ _ ?_)
        rw [List.map_append, hbares, ← List.map_append, List.take_append_drop]
    obtain ⟨w, t, hrun, hbare, ht⟩ := hbody
    refine ⟨w, t, ?_, hbare, ht⟩
    show (Call.expand (.cons id first rest) env).nested
      (Run.Expansion.wholly (run (n + 1) calls) (n + 1) (.cons id first rest) env) u = _
    simp only [Call.nested, Call.nestsIn?, hfault, hrun]
  | _ => cases hv

/-- A list that is no macro call settles if its elements do, with room for one list less. -/
theorem settles_list (hv : v.isCons = true) (hcall : v.isCall macros = false)
    (hrounds : 0 < rounds) (hpos : 0 < room)
    (h : ∀ kept, keptBehind v.head? = some kept →
      ∀ w ∈ v.cars.drop kept, w.Settles macros env rounds calls (room - 1)) :
    v.Settles macros env rounds (calls + 1) room := by
  intro u hu hroom
  have hdeep : (u.level (u.realmOf env)).HasRoom :=
    Store.hasRoom_iff.mpr (Nat.lt_of_lt_of_le hpos hroom)
  -- what an element's expansion leaves in place for the next one
  let I : Store → Prop := fun t => t.frames = u.frames ∧ t.level = (u.deepen env).level
  have helement : ∀ kept, keptBehind v.head? = some kept → ∀ w ∈ v.cars.drop kept, ∀ t, I t →
      ∃ w' t', run rounds calls (.expand w env) t = (.ok w', t') ∧ w'.bare = w.bare ∧ I t' := by
    intro kept hkept w hw t ⟨hframes, hlevel⟩
    have hroom' : room - 1 ≤ t.room env := by
      rw [Store.room_of_frames (s := u.deepen env) hframes hlevel, Store.room_deepen hdeep]
      exact Nat.sub_le_sub_right hroom 1
    obtain ⟨w', t', hrun, hbare, hframes'⟩ := h kept hkept w hw t (hu.of_frames hframes) hroom'
    exact ⟨w', t', hrun, hbare, hframes'.trans hframes, (level_of_run hrun).trans hlevel⟩
  obtain ⟨w, t, hrun, hbare, hframes, -⟩ :=
    expand_list (I := I) hv ((Value.isCall_of_macros hu v).trans hcall) hrounds hdeep ⟨rfl, rfl⟩
      (fun _ _ => id) helement
  exact ⟨w, _, hrun, hbare, hframes⟩

/-! ### What expansion results in -/

/-- A nested step that has a result was taken, and given back. -/
theorem nested_eq_ok {c : Call α} {a : α} {m : Run α} (hc : c.nestsIn? = some env)
    (hrefused : ∀ f, c.refused f ≠ .ok a) (h : c.nested m s = (.ok a, t)) :
    ∃ t', (s.level (s.realmOf env)).HasRoom ∧ m (s.deepen env) = (.ok a, t') ∧
      t = t'.riseIn (s.realmOf env) := by
  rcases hfault : s.depthFault? env with - | f
  · rcases hm : m (s.deepen env) with ⟨r, t'⟩
    simp only [Call.nested, hc, hfault, hm] at h
    cases h
    exact ⟨t', Store.depthFault?_eq_none_iff.mp hfault, rfl, rfl⟩
  · simp only [Call.nested, hc, hfault] at h
    exact absurd (congrArg Prod.fst h) (hrefused f)

/-- The elements of a list settle if forms do. -/
theorem mapM_strictly_settles {items vs : List Value}
    (hform : ∀ {form v s t}, expandStrictly rounds env calls form s = (.ok v, t) →
      env < s.frames.size → s.Names env macros → t.Names env macros →
      v.Normal macros ∧ v.Settles macros env rounds calls (s.room env))
    (h : items.mapM (expandStrictly rounds env calls) s = (.ok vs, t))
    (henv : env < s.frames.size) (hs : s.Names env macros) (ht : t.Names env macros) :
    ∀ v ∈ vs, v.Normal macros ∧ v.Settles macros env rounds calls (s.room env) := by
  induction items generalizing s vs with
  | nil =>
    cases h
    exact nofun
  | cons item items ih =>
    rw [List.mapM_cons] at h
    obtain ⟨v, u, hfirst, h⟩ := Run.bind_eq_ok h
    obtain ⟨others, t', hothers, h⟩ := Run.bind_eq_ok h
    cases h
    have hrun := (expandStrictly_or_unfinished rounds env calls item).eq_of_ok hfirst
    -- the macros' names are bound to the same values before and after, so in between too
    have hlater := Store.Later.of_run hrun
    have hlater' : u.Later t := by
      have hlater' : u.Later (items.mapM (fun item => run rounds calls (.expand item env)) u).2 :=
        (Composed.mapM (fun item => .call (.expand item env)) items).leads Store.leads_later
          (fun c s => run_later rounds calls c s) u
      have hrun' :=
        (OrUnfinished.mapM (expandStrictly_or_unfinished rounds env calls) items).eq_of_ok hothers
      rwa [hrun'] at hlater'
    have hu := hs.between ht hlater hlater'
    have henv' : env < u.frames.size := Nat.lt_of_lt_of_le henv hlater.size
    have hall := ih hothers henv' hu
    rw [hlater.room_eq (level_of_run hrun) henv] at hall
    exact List.forall_mem_cons.mpr ⟨hform hfirst henv hs hu, hall⟩

/-- A list that is no macro call results in a form that is normal and settles, if the elements of
lists do. -/
theorem elementsStrictly_settles {id : ObjectId} {first rest : Value} (hrounds : 0 < rounds)
    (hroom : s.room env = room - 1) (hpos : 0 < room)
    (hcall : (Value.cons id first rest).isCall macros = false)
    (hitems : ∀ {items vs : List Value} {u : Store},
      items.mapM (expandStrictly rounds env calls) s = (.ok vs, u) → u.Names env macros →
      ∀ v ∈ vs, v.Normal macros ∧ v.Settles macros env rounds calls (s.room env))
    (h : Run.Expansion.elementsStrictly (expandStrictly rounds env calls) env
      (.cons id first rest) first s = (.ok v, t))
    (ht : t.Names env macros) :
    v.Normal macros ∧ v.Settles macros env rounds (calls + 1) room := by
  have hhead : (Value.cons id first rest).head? = first.symbol? := rfl
  -- a list kept as data, or one whose later elements are expanded
  cases hkept : keptBehind first.symbol? with
  | none =>
    simp only [Run.Expansion.elementsStrictly, hkept] at h
    cases h
    refine ⟨.data hcall hkept, settles_list rfl hcall hrounds hpos fun kept hkept' => ?_⟩
    cases hkept.symm.trans hkept'
  | some kept =>
    simp only [Run.Expansion.elementsStrictly, hkept] at h
    obtain ⟨vs, u, hmap, h⟩ := Run.bind_eq_ok h
    obtain ⟨list, u', hlist, h⟩ := Run.bind_eq_ok h
    cases hlist
    rw [Run.bind_apply_ok (Run.read_apply _ _)] at h
    split at h
    · cases h
    · next hnot =>
      cases h
      have hall := hitems hmap (ht.of_frames rfl)
      -- the list has as many elements as before, so it is not empty
      obtain ⟨a, others, hcons⟩ : ∃ a others,
          (Value.cons id first rest).cars.take kept ++ vs = a :: others := by
        refine List.exists_cons_of_length_eq_add_one (n := rest.cars.length) ?_
        rw [List.length_append, Run.length_of_mapM hmap, ← List.length_append,
          List.take_append_drop]
        rfl
      have htail := Value.isCons_finalTail (Value.cons id first rest)
      obtain ⟨hcars, -⟩ := Value.chain_parts u.nextId
        ((Value.cons id first rest).cars.take kept ++ vs) htail
      obtain ⟨id', n, hchain⟩ := Value.exists_chain_cons u.nextId a others
        (Value.cons id first rest).finalTail
      rw [← hcons] at hchain
      have hlist : (Value.chain u.nextId ((Value.cons id first rest).cars.take kept ++ vs).reverse
          (Value.cons id first rest).finalTail).1.isCons = true := by
        rw [hchain]
        rfl
      have hmem : ∀ kept', keptBehind (Value.chain u.nextId
          ((Value.cons id first rest).cars.take kept ++ vs).reverse
            (Value.cons id first rest).finalTail).1.head? = some kept' → _ := fun kept' hkept' =>
        Value.mem_of_mem_drop_cars rfl hlist hcars hkept hkept'
      have hcall' := (Value.isCall_of_macros ht _).symm.trans (Bool.eq_false_iff.mpr hnot)
      refine ⟨?_, settles_list hlist hcall' hrounds hpos fun kept' hkept' w hw =>
        hroom ▸ (hall w (hmem kept' hkept' w hw)).2⟩
      rcases hkept' : keptBehind (Value.chain u.nextId
        ((Value.cons id first rest).cars.take kept ++ vs).reverse
          (Value.cons id first rest).finalTail).1.head? with - | kept'
      · exact .data hcall' hkept'
      · exact .elements hcall' hkept' fun w hw => (hall w (hmem kept' hkept' w hw)).1

/-- What expansion that looks twice results in is normal, and settles with the room that there
was. -/
theorem expandStrictly_settles {form : Value}
    (h : expandStrictly rounds env calls form s = (.ok v, t)) (henv : env < s.frames.size)
    (hs : s.Names env macros) (ht : t.Names env macros) :
    v.Normal macros ∧ v.Settles macros env rounds calls (s.room env) := by
  induction calls generalizing form v s t with
  | zero => cases h
  | succ calls ih =>
    rcases hcons : form.isCons
    · obtain rfl : v = form := by
        cases form with
        | cons id a d => cases hcons
        | _ => cases h; rfl
      exact ⟨.atom hcons, settles_atom hcons⟩
    · have hnests : (Call.expand form env).nestsIn? = some env := by
        cases form with
        | cons id a d => rfl
        | _ => cases hcons
      obtain ⟨t', hdeep, hbody, rfl⟩ := nested_eq_ok hnests (fun _ => nofun) h
      rw [if_pos hcons] at hbody
      obtain ⟨next, u, hhead, hbody⟩ := Run.bind_eq_ok hbody
      obtain ⟨hrounds, hcall⟩ := isCall_of_head hhead
      -- the frame is as it was when its elements are expanded
      have hcomposed := (Composed.expandHead env rounds form).mono OperatesOrMarks.operates
      have hlater : (s.deepen env).Later u := by
        have hleads := hcomposed.leads Store.leads_later
          (fun c s => run_later rounds calls c s) (s.deepen env)
        rwa [hhead] at hleads
      have hlevel : u.level = (s.deepen env).level := by
        have hleads := hcomposed.leads Store.leads_level
          (fun c s => run_level rounds calls c s) (s.deepen env)
        rwa [hhead] at hleads
      have hroom : u.room env = s.room env - 1 := by
        rw [← Store.room_deepen hdeep]
        exact hlater.room_eq hlevel henv
      have henv' : env < u.frames.size := Nat.lt_of_lt_of_le henv hlater.size
      have ht' : t'.Names env macros := ht.of_frames rfl
      cases next with
      | cons id first rest =>
        have hrun := (OrUnfinished.elements (expandStrictly_or_unfinished rounds env calls)
          (.cons id first rest) first).eq_of_ok hbody
        have hlater' : u.Later t' := by
          have hleads := ((Composed.elements env (.cons id first rest) first).mono
            OperatesOrMarks.operates).leads Store.leads_later
              (fun c s => run_later rounds calls c s) u
          rwa [hrun] at hleads
        have hdeepen : (s.deepen env).Names env macros := hs.of_frames rfl
        have hu := hdeepen.between ht' hlater hlater'
        refine elementsStrictly_settles hrounds hroom (Store.hasRoom_iff.mp hdeep)
          ((Value.isCall_of_macros hu _).symm.trans hcall) (fun hmap hnames => ?_) hbody ht'
        exact mapM_strictly_settles ih hmap henv' hu hnames
      | _ =>
        cases hbody
        exact ⟨.atom rfl, settles_atom rfl⟩

end Again

/-- Where no list becomes a macro call when its elements are expanded, and no macro is added
meanwhile, the result of expansion has no macro calls, and to expand it again makes no
difference. -/
theorem expansion_settles {rounds calls : Nat} {env : FrameId} {form v : Value} {s t : Store}
    (henv : env < s.frames.size) (h : run rounds calls (.expand form env) s = (.ok v, t))
    (hmacros : ∀ symbol, (t.expander? env symbol).isSome → (s.expander? env symbol).isSome)
    (hstrict : (expandStrictly rounds env calls form s).1 ≠ .error .unfinished) :
    v.Normal (t.expander? env) ∧ ∃ w u, run rounds calls (.expand v env) t = (.ok w, u) ∧
      w.bare = v.bare ∧ u.frames = t.frames := by
  have hlater : s.Later t := by
    have hlater := run_later rounds calls (.expand form env) s
    rwa [h] at hlater
  have hlevel : t.level = s.level := by
    have hlevel := run_level rounds calls (.expand form env) s
    rwa [h] at hlevel
  -- a macro defined meanwhile would make a call of what was none
  have hnames : s.Names env (t.expander? env) := fun symbol =>
    Bool.eq_iff_iff.mpr ⟨hlater.isSome_expander?, hmacros symbol⟩
  have hstrictly : expandStrictly rounds env calls form s = (.ok v, t) := by
    rcases expandStrictly_or_unfinished rounds env calls form s with hfree | heq
    · exact absurd hfree hstrict
    · exact heq.trans h
  obtain ⟨hnormal, hsettles⟩ := expandStrictly_settles hstrictly henv hnames fun _ => rfl
  exact ⟨hnormal, hsettles t (fun _ => rfl) (Nat.le_of_eq (hlater.room_eq hlevel henv).symm)⟩

/-! ### First elements that become the name of a macro -/

namespace Renaming

/-- The name of a macro that becomes the name of the other one. -/
def m : Symbol := ⟨0, 0, "m", none⟩

/-- The name of a macro that becomes its argument. -/
def n : Symbol := ⟨1, 0, "n", none⟩

/-- The parameter. -/
def x : Symbol := ⟨2, 0, "x", none⟩

/-- The head of a quoted form. -/
def quote : Symbol := ⟨3, 0, "quote", some (.form .quote)⟩

/-- A store with the two macros. -/
def store : Store :=
  { Store.empty .empty with
    frames := #[⟨0, none, [], [(m, 0), (n, 1)]⟩]
    closures := #[
      ⟨some m, ⟨[], none⟩, [Value.bareList [.symbol quote, .symbol n]], 0⟩,
      ⟨some n, ⟨[x], none⟩, [.symbol x], 0⟩]
    realms := #[⟨⟨0, .preserve, ["quote", "x", "n", "m"], 0⟩, [], 0, 9⟩] }

/-- A store with the frames of this one has its macros. -/
theorem expander?_of_expanders {t : Store} (hchain : t.chain 0 = [0])
    (hexpanders : (t.frame 0).expanders = (store.frame 0).expanders) (symbol : Symbol) :
    t.expander? 0 symbol = store.expander? 0 symbol := by
  have hstore : store.chain 0 = [0] := rfl
  rw [Store.expander?, Store.expander?, hchain, hstore, List.findSome?_singleton, hexpanders,
    List.findSome?_singleton]

end Renaming

open Renaming in
/-- A first element that becomes a symbol which is no macro, and a macro call that is quoted. -/
theorem expansion_settles_of_first_element :
    let form := Value.bareList [Value.bareList [.symbol n, .symbol x],
      Value.bareList [.symbol quote, Value.bareList [.symbol n, .symbol x]]]
    let v : Value := .cons 1 (.symbol x)
      (.cons 0 (Value.bareList [.symbol quote, Value.bareList [.symbol n, .symbol x]]) .nil)
    let t := (run 9 9 (.expand form 0) store).2
    0 < store.frames.size ∧ run 9 9 (.expand form 0) store = (.ok v, t) ∧
      (∀ symbol, (t.expander? 0 symbol).isSome → (store.expander? 0 symbol).isSome) ∧
      (expandStrictly 9 0 9 form store).1 ≠ .error .unfinished ∧
      v.Normal (t.expander? 0) ∧ ∃ w u, run 9 9 (.expand v 0) t = (.ok w, u) ∧
        w.bare = v.bare ∧ u.frames = t.frames := by
  intro form v t
  have hcomputed : 0 < store.frames.size ∧ (run 9 9 (.expand form 0) store).1 = .ok v ∧
      t.chain 0 = [0] ∧ (t.frame 0).expanders = (store.frame 0).expanders ∧
      (expandStrictly 9 0 9 form store).1 ≠ .error .unfinished := by
    decide +kernel
  obtain ⟨henv, hresult, hchain, hexpanders, hstrict⟩ := hcomputed
  have h : run 9 9 (.expand form 0) store = (.ok v, t) := Prod.ext hresult rfl
  have hmacros : ∀ symbol, (t.expander? 0 symbol).isSome → (store.expander? 0 symbol).isSome :=
    fun symbol hs => expander?_of_expanders hchain hexpanders symbol ▸ hs
  clear_value t
  exact ⟨henv, h, hmacros, hstrict, expansion_settles henv h hmacros hstrict⟩

open Renaming in
/-- A macro call stays, and is expanded only the next time, where the first element of a list
becomes the name of a macro. -/
theorem expansion_leaves_call :
    let form := Value.bareList [Value.bareList [.symbol m], .t]
    let v : Value := .cons 1 (.symbol n) (.cons 0 .t .nil)
    let t := (run 9 9 (.expand form 0) store).2
    (run 9 9 (.expand form 0) store).1 = .ok v ∧
      (∀ symbol, t.expander? 0 symbol = store.expander? 0 symbol) ∧
      ¬ v.Normal (t.expander? 0) ∧ (run 9 9 (.expand v 0) t).1 = .ok .t := by
  intro form v t
  have hcomputed : (run 9 9 (.expand form 0) store).1 = .ok v ∧ t.chain 0 = [0] ∧
      (t.frame 0).expanders = (store.frame 0).expanders ∧
      v.isCall (t.expander? 0) = true ∧ (run 9 9 (.expand v 0) t).1 = .ok .t := by
    decide +kernel
  obtain ⟨hresult, hchain, hexpanders, hcall, hagain⟩ := hcomputed
  refine ⟨hresult, expander?_of_expanders hchain hexpanders, fun hnormal => ?_, hagain⟩
  exact Bool.false_ne_true (hnormal.isCall.symm.trans hcall)

end PocketLisp
