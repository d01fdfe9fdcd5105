/-
PocketLisp/Proofs/Heap.lean

The heap: the frames and the closures of a store, and the values that name
closures.

`Value.Over` says which closures may occur in a value, and `Fresh.Yields` what
a computation on values results in: nothing that makes cells and texts brings
a closure into a value that was in none of its operands.

In a sound heap every frame extends an older one of the same realm, so the
chain of a frame goes all the way out (`Store.Sound.chain_eq`).
-/
import PocketLisp.Proofs.Steps

namespace PocketLisp

variable {α β : Type}

/-! ### Closures in values -/

namespace Value

/-- The closures that occur in a value. -/
def closures : Value → List Nat
  | .function (.closure f) => [f.index]
  | .cons _ a d => a.closures ++ d.closures
  | _ => []

/-- All closures that occur in a value are among those given. -/
def Over (K : Nat → Prop) (v : Value) : Prop := ∀ c ∈ v.closures, K c

variable {K L : Nat → Prop} {v : Value} {vs : List Value}

theorem Over.mono (h : v.Over K) (hKL : ∀ c, K c → L c) : v.Over L := fun c hc => hKL c (h c hc)

@[simp] theorem over_nil : Value.nil.Over K := nofun

@[simp] theorem over_t : Value.t.Over K := nofun

@[simp] theorem over_number (x : Float) : (Value.number x).Over K := nofun

@[simp] theorem over_text (id : ObjectId) (content : String) : (Value.text id content).Over K :=
  nofun

@[simp] theorem over_symbol (s : Symbol) : (Value.symbol s).Over K := nofun

@[simp] theorem over_native (f : Native) : (Value.function (.native f)).Over K := nofun

@[simp] theorem over_closure (f : ClosureRef) :
    (Value.function (.closure f)).Over K ↔ K f.index := List.forall_mem_singleton

@[simp] theorem over_cons (id : ObjectId) (a d : Value) :
    (Value.cons id a d).Over K ↔ a.Over K ∧ d.Over K := List.forall_mem_append

@[simp] theorem over_ofBool (b : Bool) : (Value.ofBool b).Over K := by
  cases b
  · exact over_nil
  · exact over_t

/-- A list of new cells has the closures of its items. -/
theorem over_chain {tail : Value} (h : ∀ v ∈ vs, v.Over K) (htail : tail.Over K)
    (next : ObjectId) : (chain next vs tail).1.Over K := by
  induction vs generalizing next tail with
  | nil => exact htail
  | cons v vs ih =>
    obtain ⟨hv, hvs⟩ := List.forall_mem_cons.mp h
    exact ih hvs ((over_cons _ _ _).mpr ⟨hv, htail⟩) _

theorem Over.tailItems (h : v.Over K) : ∀ x ∈ v.tailItems, x.Over K := by
  induction v with
  | nil => exact fun _ hx => nomatch hx
  | cons id a d _ ih =>
    obtain ⟨ha, hd⟩ := (over_cons _ _ _).mp h
    exact List.forall_mem_cons.mpr ⟨ha, ih hd⟩
  | _ => exact List.forall_mem_singleton.mpr h

theorem Over.items (h : v.Over K) : ∀ x ∈ v.items, x.Over K := by
  cases v with
  | cons id a d =>
    rw [items_cons]
    exact h.tailItems
  | _ => exact fun _ hx => nomatch hx

theorem Over.listItems (h : v.Over K) (hitems : v.listItems = .ok vs) : ∀ x ∈ vs, x.Over K := by
  unfold Value.listItems at hitems
  split at hitems
  · cases hitems
    exact h.items
  · cases hitems

theorem Over.car {w : Value} (h : v.Over K) (hcar : v.car = .ok w) : w.Over K := by
  cases v with
  | cons id a d =>
    cases hcar
    exact ((over_cons _ _ _).mp h).1
  | nil =>
    cases hcar
    exact over_nil
  | _ => cases hcar

theorem Over.cdr {w : Value} (h : v.Over K) (hcdr : v.cdr = .ok w) : w.Over K := by
  cases v with
  | cons id a d =>
    cases hcdr
    exact ((over_cons _ _ _).mp h).2
  | nil =>
    cases hcdr
    exact over_nil
  | _ => cases hcdr

/-- The length of a sequence is a number. -/
theorem length_over {w : Value} (hlength : v.length = .ok w) : w.Over K := by
  unfold Value.length at hlength
  split at hlength
  · cases hlength
    exact over_number _
  · split at hlength
    · cases hlength
      exact over_number _
    · cases hlength

theorem Over.finalTail (h : v.Over K) : v.finalTail.Over K := by
  induction v with
  | cons id a d _ ih => exact ih ((over_cons _ _ _).mp h).2
  | _ => exact h

theorem Over.expectFunction {operator : String} {f : Function} (h : v.Over K)
    (hf : v.expectFunction operator = .ok f) : (Value.function f).Over K := by
  cases v with
  | function g =>
    cases hf
    exact h
  | _ => cases hf

end Value

/-! ### Computations on values -/

namespace Fresh

/-- What a computation on values results in. -/
def Yields (body : Fresh α) (Q : α → Prop) : Prop :=
  ∀ n a n', body n = (.ok a, n') → Q a

namespace Yields

variable {Q : α → Prop} {R : β → Prop} {body : Fresh α} {K : Nat → Prop}

protected theorem pure {a : α} (h : Q a) : Yields (pure a) Q := by
  intro n b n' hb
  cases hb
  exact h

protected theorem throw (f : Fault) : Yields (throw f) Q := nofun

protected theorem bind {k : α → Fresh β} (h : Yields body Q) (hk : ∀ a, Q a → Yields (k a) R) :
    Yields (body >>= k) R := by
  intro n b n' hb
  replace hb : ExceptT.bindCont k (body n).1 (body n).2 = (.ok b, n') := hb
  rcases hbody : body n with ⟨f | a, m⟩ <;> rw [hbody] at hb
  · cases hb
  · exact hk a (h n a m hbody) m b n' hb

theorem ofExcept {x : Except Fault α} (h : ∀ a, x = .ok a → Q a) :
    Yields (liftM x) Q := by
  intro n a n' ha
  cases x with
  | error f => cases ha
  | ok b =>
    cases ha
    exact h _ rfl

theorem mono {Q' : α → Prop} (h : Yields body Q) (hQ : ∀ a, Q a → Q' a) : Yields body Q' :=
  fun n a n' ha => hQ a (h n a n' ha)

protected theorem mapM {f : α → Fresh β} (xs : List α) (h : ∀ x ∈ xs, Yields (f x) R) :
    Yields (xs.mapM f) fun ys => ∀ y ∈ ys, R y := by
  induction xs with
  | nil => exact Yields.pure nofun
  | cons x xs ih =>
    obtain ⟨hx, hxs⟩ := List.forall_mem_cons.mp h
    rw [List.mapM_cons]
    refine hx.bind fun y hy => ?_
    refine (ih hxs).bind fun ys hys => ?_
    exact Yields.pure (List.forall_mem_cons.mpr ⟨hy, hys⟩)

protected theorem foldlM {g : β → α → Fresh β} (xs : List α) {b : β}
    (h : ∀ b, R b → ∀ x ∈ xs, Yields (g b x) R) (hb : R b) : Yields (xs.foldlM g b) R := by
  induction xs generalizing b with
  | nil => exact Yields.pure hb
  | cons x xs ih =>
    rw [List.foldlM_cons]
    refine (h b hb x List.mem_cons_self).bind fun b' hb' => ?_
    exact ih (fun b'' hb'' y hy => h b'' hb'' y (List.mem_cons_of_mem _ hy)) hb'

theorem text (content : String) : (Fresh.text content).Yields (Value.Over K) := by
  intro n v n' hv
  cases hv
  exact Value.over_text _ _

theorem cons {a d : Value} (ha : a.Over K) (hd : d.Over K) :
    (Fresh.cons a d).Yields (Value.Over K) := by
  intro n v n' hv
  cases hv
  exact (Value.over_cons _ _ _).mpr ⟨ha, hd⟩

theorem listOnto {items : List Value} {tail : Value} (h : ∀ v ∈ items, v.Over K)
    (htail : tail.Over K) : (Fresh.listOnto items tail).Yields (Value.Over K) := by
  intro n v n' hv
  cases hv
  exact Value.over_chain (fun v hv => h v (List.mem_reverse.mp hv)) htail _

theorem list {items : List Value} (h : ∀ v ∈ items, v.Over K) :
    (Fresh.list items).Yields (Value.Over K) :=
  listOnto h Value.over_nil

/-- The elements of a sequence have the closures of the sequence. -/
theorem elements {v : Value} (h : v.Over K) :
    v.elements.Yields fun vs => ∀ x ∈ vs, x.Over K := by
  cases v with
  | text id content => exact Yields.mapM _ fun _ _ => text _
  | _ => exact ofExcept fun _ hitems => h.listItems hitems

theorem reverse {v : Value} (h : v.Over K) : v.reverse.Yields (Value.Over K) := by
  cases v with
  | text id content => exact text _
  | _ =>
    refine (ofExcept fun vs hitems => h.listItems hitems).bind fun vs hvs => ?_
    exact list fun x hx => hvs x (List.mem_reverse.mp hx)

/-- A progression consists of numbers. -/
theorem range (args : List Value) : (Value.range args).Yields (Value.Over K) := by
  have hlist : ∀ xs : List Float, Yields (Fresh.list (xs.map .number)) (Value.Over K) := by
    refine fun xs => list fun v hv => ?_
    obtain ⟨x, -, rfl⟩ := List.mem_map.mp hv
    exact Value.over_number x
  refine (ofExcept (Q := fun _ => True) fun _ _ => trivial).bind fun numbers _ => ?_
  match numbers with
  | [_] | [_, _] | [_, _, _] =>
    dsimp only
    split
    · exact hlist _
    · exact Yields.throw _
  | [] | _ :: _ :: _ :: _ :: _ => exact Yields.throw _

/-- A part of a text is a text. -/
theorem substring (args : List Value) : (Value.substring args).Yields (Value.Over K) := by
  have hcut : ∀ (pieces : List String) (f : Fault) (start stop : Nat),
      Yields (if stop < start ∨ pieces.length < stop then throw f
        else Fresh.text (String.join ((pieces.take stop).drop start))) (Value.Over K) := by
    intro pieces f start stop
    split
    · exact Yields.throw _
    · exact text _
  have hany : ∀ {γ : Type} (x : Except Fault γ), Yields (liftM x) fun _ => True :=
    fun x => ofExcept fun _ _ => trivial
  match args with
  | [v, first] =>
    refine (hany _).bind fun content _ => (hany _).bind fun start _ => ?_
    exact hcut _ _ _ _
  | [v, first, last] =>
    refine (hany _).bind fun content _ => (hany _).bind fun start _ => ?_
    exact (hany _).bind fun stop _ => hcut _ _ _ _
  | [] | [_] | _ :: _ :: _ :: _ :: _ => exact Yields.throw _

theorem calculate (op : Calculation) {v w : Value} (hv : v.Over K) (hw : w.Over K) :
    (op.apply v w).Yields (Value.Over K) := by
  unfold Calculation.apply
  split
  · exact (ofExcept fun _ _ => trivial).bind fun x (_ : True) => Yields.pure (Value.over_number x)
  · exact text _
  · split
    · exact listOnto hv.items hw
    · exact Yields.throw _
  · exact Yields.throw _

theorem compareChain_over (op : Comparison) (args : List Value) {v : Value}
    (h : Operator.compareChain op args = .ok v) : v.Over K := by
  induction args with
  | nil =>
    cases h
    exact Value.over_t
  | cons a rest ih =>
    cases rest with
    | nil =>
      cases h
      exact Value.over_t
    | cons b rest =>
      -- a chain ends in t, in nil at the first pair that fails, or in a fault
      rw [Operator.compareChain] at h
      rcases hx : op.apply a b with f | x <;> rw [hx] at h
      · cases h
      · replace h : (if x.isTrue then Operator.compareChain op (b :: rest)
            else return Value.nil) = .ok v := h
        split at h
        · exact ih h
        · cases h
          exact Value.over_nil

/-- An operator makes a value from those it is given. -/
theorem fold (op : Operator) {args : List Value} (h : ∀ v ∈ args, v.Over K) :
    (op.fold args).Yields (Value.Over K) := by
  unfold Operator.fold
  split
  · exact ofExcept fun _ hv => compareChain_over _ _ hv
  · exact Yields.pure (Value.over_number _)
  · next c first rest _ =>
    obtain ⟨hfirst, hrest⟩ := List.forall_mem_cons.mp h
    exact Yields.foldlM rest (fun v hv w hw => calculate c hv (hrest w hw)) hfirst
  · exact Yields.throw _

end Yields

end Fresh

namespace Store

/-! ### Sound heaps -/

/-- Every frame has a realm and extends an older one of the same realm, and every closure was made
in a frame. -/
structure Sound (s : Store) : Prop where
  inRealm : ∀ {i : Nat}, i < s.frames.size → s.realmOf i < s.realms.size
  outer : ∀ {i o : Nat}, (s.frame i).outer = some o → o < i
  realm : ∀ {i o : Nat}, (s.frame i).outer = some o → s.realmOf o = s.realmOf i
  env : ∀ {c : Nat}, c < s.closures.size → (s.closure c).env < s.frames.size

variable {s t u : Store} {i j o : Nat}

theorem frame_of_le (h : s.frames.size ≤ i) : s.frame i = default := by
  rw [frame, Array.getD_eq_getD_getElem?, Array.getElem?_eq_none h]
  rfl

theorem frame_eq_of_getElem? {f : Frame} (h : s.frames[i]? = some f) : s.frame i = f := by
  rw [frame, Array.getD_eq_getD_getElem?, h]
  rfl

theorem getElem?_frames (h : i < s.frames.size) : s.frames[i]? = some (s.frame i) := by
  rw [frame_eq_of_getElem? (Array.getElem?_eq_getElem h), Array.getElem?_eq_getElem h]

theorem lt_of_outer (h : (s.frame i).outer = some o) : i < s.frames.size := by
  refine Nat.lt_of_not_le fun hle => ?_
  rw [frame_of_le hle] at h
  cases h

/-- What is closed under going out holds of the whole chain of a frame. -/
theorem forall_chain {P : FrameId → Prop} (hP : ∀ {i o}, P i → (s.frame i).outer = some o → P o)
    (h : P i) : ∀ j ∈ s.chain i, P j := by
  -- for any fuel, since a chain is cut off at the number of frames
  have hwithin : ∀ fuel i, P i → ∀ j ∈ chainWithin s.frames fuel i, P j := by
    intro fuel
    induction fuel with
    | zero => exact fun _ _ _ hj => nomatch hj
    | succ fuel ih =>
      intro i hi j hj
      rw [chainWithin] at hj
      rcases hf : s.frames[i]? with - | f <;> rw [hf] at hj
      · cases hj
      · rcases houter : f.outer with - | o <;> simp only [houter] at hj
        · exact List.mem_singleton.mp hj ▸ hi
        · rcases List.mem_cons.mp hj with rfl | hj
          · exact hi
          · exact ih o (hP hi (by rw [frame_eq_of_getElem? hf, houter])) j hj
  exact hwithin _ i h

/-- What is closed under going out holds of the outermost frame. -/
theorem global_of {P : FrameId → Prop} (hP : ∀ {i o}, P i → (s.frame i).outer = some o → P o)
    (h : P i) : P (s.global i) := by
  rw [global, List.getLastD_eq_getLast?]
  rcases hlast : (s.chain i).getLast? with - | j
  · exact h
  · exact forall_chain hP h j (List.mem_of_getLast? hlast)

namespace Sound

/-- Fuel for all older frames is enough. -/
theorem chainWithin_eq (hs : s.Sound) {fuel fuel' : Nat} (h : i < fuel) (h' : i < fuel') :
    chainWithin s.frames fuel i = chainWithin s.frames fuel' i := by
  induction fuel generalizing fuel' i with
  | zero => exact absurd h (Nat.not_lt_zero _)
  | succ fuel ih =>
    obtain ⟨fuel', rfl⟩ := Nat.exists_eq_add_one.mpr (Nat.zero_lt_of_lt h')
    rw [chainWithin, chainWithin]
    rcases hf : s.frames[i]? with - | f
    · rfl
    · rcases houter : f.outer with - | o <;> simp only [houter]
      have ho := hs.outer (i := i) (o := o) (by rw [frame_eq_of_getElem? hf, houter])
      have hlt (m : Nat) (hm : i < m + 1) : o < m :=
        Nat.lt_of_lt_of_le ho (Nat.le_of_lt_succ hm)
      rw [ih (hlt fuel h) (hlt fuel' h')]

/-- The chain of a frame is that frame, and the chain of the frame that it extends. -/
theorem chain_eq (hs : s.Sound) (h : i < s.frames.size) :
    s.chain i = i :: match (s.frame i).outer with
      | none => []
      | some o => s.chain o := by
  obtain ⟨n, hn⟩ := Nat.exists_eq_add_one.mpr (Nat.zero_lt_of_lt h)
  rw [chain, hn, chainWithin, getElem?_frames h]
  rcases houter : (s.frame i).outer with - | o <;> simp only [houter]
  have ho := hs.outer houter
  rw [chain, hs.chainWithin_eq (Nat.lt_of_lt_of_le ho (by omega)) (Nat.lt_trans ho h)]

/-- A chain ends with a frame that extends no other. -/
theorem exists_outermost (hs : s.Sound) (h : i < s.frames.size) :
    ∃ g ∈ s.chain i, (s.frame g).outer = none := by
  induction i using Nat.strongRecOn with
  | ind i ih =>
    rw [hs.chain_eq h]
    rcases houter : (s.frame i).outer with - | o
    · exact ⟨i, List.mem_cons_self, houter⟩
    · have ho := hs.outer houter
      obtain ⟨g, hg, hnone⟩ := ih o ho (by omega)
      exact ⟨g, List.mem_cons_of_mem _ hg, hnone⟩

/-- All frames of a chain have one realm. -/
theorem realm_chain (hs : s.Sound) : ∀ j ∈ s.chain i, s.realmOf j = s.realmOf i :=
  forall_chain (P := fun j => s.realmOf j = s.realmOf i)
    (fun h houter => (hs.realm houter).trans h) rfl

theorem inRange_chain (hs : s.Sound) (h : i < s.frames.size) :
    ∀ j ∈ s.chain i, j < s.frames.size :=
  forall_chain (P := fun j => j < s.frames.size)
    (fun h houter => Nat.lt_trans (hs.outer houter) h) h

end Sound

/-! ### Operations on the heap -/

theorem frame_bindAt (s : Store) (i : FrameId) (symbol : Symbol) (v : Value) (j : FrameId) :
    (s.bindAt i symbol v).frame j =
      if i = j ∧ j < s.frames.size then
        { s.frame j with values := (s.frame j).values.put symbol v }
      else s.frame j := by
  simp only [frame, bindAt, Array.getD_eq_getD_getElem?, Array.getElem?_modify]
  by_cases hj : j < s.frames.size
  · rw [Array.getElem?_eq_getElem hj]
    by_cases hij : i = j <;> simp [hij, hj]
  · rw [Array.getElem?_eq_none (Nat.le_of_not_lt hj)]
    simp [hj]

theorem frame_bindExpander (s : Store) (i : FrameId) (symbol : Symbol) (c : Nat) (j : FrameId) :
    (s.bindExpander i symbol c).frame j =
      if i = j ∧ j < s.frames.size then
        { s.frame j with expanders := (s.frame j).expanders.put symbol c }
      else s.frame j := by
  simp only [frame, bindExpander, Array.getD_eq_getD_getElem?, Array.getElem?_modify]
  by_cases hj : j < s.frames.size
  · rw [Array.getElem?_eq_getElem hj]
    by_cases hij : i = j <;> simp [hij, hj]
  · rw [Array.getElem?_eq_none (Nat.le_of_not_lt hj)]
    simp [hj]

theorem frame_extend (s : Store) (i j : Nat) :
    (s.extend i).2.frame j =
      if j = s.frames.size then ⟨s.realmOf i, some i, [], []⟩ else s.frame j := by
  simp only [frame, extend, Array.getD_eq_getD_getElem?, Array.getElem?_push]
  split <;> rfl

theorem realmOf_extend (s : Store) (i j : Nat) :
    (s.extend i).2.realmOf j = if j = s.frames.size then s.realmOf i else s.realmOf j := by
  rw [realmOf, frame_extend]
  split <;> rfl

/-- A new frame binds nothing. -/
theorem bound?_extend (s : Store) (i : Nat) (symbol : Symbol) (j : Nat) :
    (s.extend i).2.bound? symbol j = s.bound? symbol j := by
  rw [bound?, bound?, frame_extend]
  split
  · next hj =>
    rw [frame_of_le (Nat.le_of_eq hj.symm)]
    rfl
  · rfl

theorem closure_addClosure (s : Store) (c : Closure) (k : Nat) :
    (s.addClosure c).2.closure k = if k = s.closures.size then c else s.closure k := by
  simp only [closure, addClosure, Array.getD_eq_getD_getElem?, Array.getElem?_push]
  split <;> rfl

@[simp] theorem size_bindAt (s : Store) (i : FrameId) (symbol : Symbol) (v : Value) :
    (s.bindAt i symbol v).frames.size = s.frames.size := Array.size_modify

@[simp] theorem size_bindExpander (s : Store) (i : FrameId) (symbol : Symbol) (c : Nat) :
    (s.bindExpander i symbol c).frames.size = s.frames.size := Array.size_modify

@[simp] theorem size_extend (s : Store) (i : FrameId) :
    (s.extend i).2.frames.size = s.frames.size + 1 := Array.size_push ..

@[simp] theorem size_addClosure (s : Store) (c : Closure) :
    (s.addClosure c).2.closures.size = s.closures.size + 1 := Array.size_push ..

/-- Two stores with the same frames, apart from what these bind. -/
structure SameShape (s t : Store) : Prop where
  size : t.frames.size = s.frames.size
  realms : t.realms.size = s.realms.size
  realmOf : ∀ i : Nat, t.realmOf i = s.realmOf i
  outer : ∀ i : Nat, (t.frame i).outer = (s.frame i).outer
  closures : t.closures = s.closures

theorem SameShape.refl (s : Store) : s.SameShape s := ⟨rfl, rfl, fun _ => rfl, fun _ => rfl, rfl⟩

theorem SameShape.trans (h : s.SameShape t) (h' : t.SameShape u) : s.SameShape u where
  size := h'.size.trans h.size
  realms := h'.realms.trans h.realms
  realmOf i := (h'.realmOf i).trans (h.realmOf i)
  outer i := (h'.outer i).trans (h.outer i)
  closures := h'.closures.trans h.closures

theorem sameShape_bindAt (s : Store) (i : FrameId) (symbol : Symbol) (v : Value) :
    s.SameShape (s.bindAt i symbol v) where
  size := size_bindAt ..
  realms := rfl
  realmOf j := by
    rw [realmOf, frame_bindAt]
    split <;> rfl
  outer j := by
    rw [frame_bindAt]
    split <;> rfl
  closures := rfl

theorem sameShape_bindExpander (s : Store) (i : FrameId) (symbol : Symbol) (c : Nat) :
    s.SameShape (s.bindExpander i symbol c) where
  size := size_bindExpander ..
  realms := rfl
  realmOf j := by
    rw [realmOf, frame_bindExpander]
    split <;> rfl
  outer j := by
    rw [frame_bindExpander]
    split <;> rfl
  closures := rfl

theorem bound?_bindAt_self {symbol : Symbol} {v : Value} (h : i < s.frames.size) :
    (s.bindAt i symbol v).bound? symbol i = some v := by
  rw [bound?, frame_bindAt, if_pos ⟨rfl, h⟩]
  exact Bindings.get?_put_same symbol v _

theorem bound?_bindAt_of_ne {symbol name : Symbol} {v : Value} (h : ¬ (i = j ∧ symbol = name)) :
    (s.bindAt i symbol v).bound? name j = s.bound? name j := by
  rw [bound?, frame_bindAt]
  split
  · next hij =>
    have hne : name ≠ symbol := fun heq => h ⟨hij.1, heq.symm⟩
    exact Bindings.get?_put_of_ne hne _ _
  · rfl

namespace Sound

theorem of_sameShape (hs : s.Sound) (h : s.SameShape t) : t.Sound where
  inRealm hi := by
    rw [h.size] at hi
    rw [h.realmOf, h.realms]
    exact hs.inRealm hi
  outer ho := by
    rw [h.outer] at ho
    exact hs.outer ho
  realm ho := by
    rw [h.outer] at ho
    rw [h.realmOf, h.realmOf, hs.realm ho]
  env {c} hc := by
    rw [h.closures] at hc
    rw [closure, h.closures, h.size]
    exact hs.env hc

theorem extend (hs : s.Sound) (hi : i < s.frames.size) : (s.extend i).2.Sound where
  inRealm {j} h := by
    rw [size_extend] at h
    rw [realmOf_extend]
    split
    · exact hs.inRealm hi
    · exact hs.inRealm (by omega)
  outer {j o} h := by
    rw [frame_extend] at h
    split at h
    · next hj =>
      cases h
      omega
    · exact hs.outer h
  -- only the new frame changes its outer frame, and it takes that frame's realm
  realm {j o} h := by
    rw [frame_extend] at h
    rw [realmOf_extend, realmOf_extend]
    split at h
    · next hj =>
      cases h
      rw [if_neg (Nat.ne_of_lt hi), if_pos hj]
    · next hj =>
      have hsize := lt_of_outer h
      have ho := hs.outer h
      rw [if_neg (by omega), if_neg hj, hs.realm h]
  env h := by
    rw [size_extend]
    exact Nat.lt_succ_of_lt (hs.env h)

theorem addClosure (hs : s.Sound) {c : Closure} (hc : c.env < s.frames.size) :
    (s.addClosure c).2.Sound where
  inRealm h := hs.inRealm h
  outer h := hs.outer h
  realm h := hs.realm h
  env {k} h := by
    rw [closure_addClosure]
    split
    · exact hc
    · rw [size_addClosure] at h
      exact hs.env (by omega)

end Sound

end Store

end PocketLisp
