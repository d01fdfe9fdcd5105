/-
PocketLisp/Proofs/Appending.lean

Sums of texts and of lists.

Two texts are joined.  Two lists are appended: there is a new cell for every
item of the first one, and behind these cells is the second one itself.  So a
dotted tail becomes an element, except in the last of several lists
(`parts_of_isSum`).  Sums have texts and cells of their own, so they are compared
by what is in them (`Value.Agrees`).

Of three operands the first two or the last two may be added first
(`agrees_of_regrouped`).  By induction it makes no difference how the arguments of
`+` are grouped.

Main result: `addition_regrouped`.
-/
import PocketLisp.Proofs.NormalForm
import PocketLisp.Proofs.Operands

namespace PocketLisp

variable {C : OperandClass} {a b c u v w x y : Value} {args rest : List Value}

namespace Value

/-! ### Items, elements and tails -/

/-- What is behind so many cells of a list. -/
def behind : Nat → Value → Value
  | n + 1, .cons _ _ d => d.behind n
  | _, v => v

/-- Behind the new cells of a list is its tail, the same object. -/
theorem behind_chain (next : ObjectId) (items : List Value) (tail : Value) :
    (chain next items.reverse tail).1.behind items.length = tail := by
  induction items with
  | nil => cases tail <;> rfl
  | cons a items ih =>
    obtain ⟨id, n, hchain⟩ := exists_chain_cons next a items tail
    rw [hchain]
    exact ih

/-! ### Values with the same in them -/

/-- Two texts are of the same characters, or two lists of the same elements and the same final
tail. -/
inductive Agrees : Value → Value → Prop
  | texts {i j : ObjectId} {content : String} : Agrees (.text i content) (.text j content)
  | lists {v w : Value} : v.isList = true → w.isList = true → v.cars = w.cars →
      v.finalTail = w.finalTail → Agrees v w

theorem Agrees.refl_of_class (hC : C ≠ .numbers) (hv : v.operandClass? = some C) : v.Agrees v := by
  cases C with
  | numbers => exact absurd rfl hC
  | texts =>
    obtain ⟨i, content, rfl⟩ := exists_text hv
    exact .texts
  | lists =>
    have hlist := isList_iff_operandClass?.mpr hv
    exact .lists hlist hlist rfl rfl

theorem Agrees.trans (h : u.Agrees v) (h' : v.Agrees w) : u.Agrees w := by
  cases h with
  | texts =>
    cases h' with
    | texts => exact .texts
    | lists hv => cases hv
  | lists hu hv hcars htail =>
    cases h' with
    | texts => cases hv
    | lists _ hw hcars' htail' => exact .lists hu hw (hcars.trans hcars') (htail.trans htail')

/-- Lists with the same in them have the same items. -/
theorem Agrees.items_eq (h : v.Agrees w) : v.items = w.items := by
  cases h with
  | texts => rfl
  | lists hv hw hcars htail => rw [Value.items_eq hv, Value.items_eq hw, hcars, htail]

end Value

/-! ### Two operands -/

/-- A value is the sum of two others, with whatever numbers its new cells have. -/
def IsSum (a b v : Value) : Prop := ∃ next n, Calculation.add.apply a b next = (.ok v, n)

theorem exists_sum (ha : a.operandClass? = some C) (hb : b.operandClass? = some C)
    (next : ObjectId) :
    ∃ v n, v.operandClass? = some C ∧ Calculation.add.apply a b next = (.ok v, n) := by
  have hadd : (Operator.calculate .add).TakesAs C [a, b] :=
    Operator.takesAs_pair.mpr ⟨rfl, ha, hb⟩
  rcases Calculation.apply_of_takesAs hadd next with hsum | ⟨hdivides, -⟩
  · exact hsum
  · rcases hdivides with h | h <;> cases h

theorem isSum_texts {i j : ObjectId} {s t : String} (h : IsSum (.text i s) (.text j t) v) :
    ∃ k, v = .text k (s ++ t) := by
  obtain ⟨next, n, h⟩ := h
  cases h
  exact ⟨next, rfl⟩

/-- The first of two lists gives its items, the second one its cells and its final tail. -/
theorem parts_of_isSum (ha : a.isList = true) (hb : b.isList = true) (h : IsSum a b v) :
    v.isList = true ∧ v.cars = a.items ++ b.cars ∧ v.finalTail = b.finalTail ∧
      v.behind a.items.length = b := by
  obtain ⟨next, n, h⟩ := h
  rw [Calculation.apply_lists ha hb] at h
  cases h
  exact ⟨Value.isList_chain hb _ _, Value.cars_chain .., Value.finalTail_chain ..,
    Value.behind_chain ..⟩

theorem items_of_isSum (ha : a.isList = true) (hb : b.isList = true) (h : IsSum a b v) :
    v.items = a.items ++ b.items := by
  obtain ⟨hv, hcars, htail, -⟩ := parts_of_isSum ha hb h
  rw [Value.items_eq hv, hcars, htail, List.append_assoc, ← Value.items_eq hb]

/-- Sums of operands with the same in them have the same in them. -/
theorem agrees_of_isSum (ha : a.Agrees x) (hb : b.Agrees y) (hC : a.operandClass? = some C)
    (hC' : b.operandClass? = some C) (hv : IsSum a b v) (hw : IsSum x y w) : v.Agrees w := by
  -- texts are joined, and of lists the elements are put one behind the other
  cases ha with
  | texts =>
    cases hb with
    | texts =>
      obtain ⟨i, rfl⟩ := isSum_texts hv
      obtain ⟨j, rfl⟩ := isSum_texts hw
      exact .texts
    | lists hlist =>
      cases hC
      cases (Value.isList_iff_operandClass?.mp hlist).symm.trans hC'
  | lists hlist hlist' hcars htail =>
    obtain rfl : C = .lists :=
      Option.some.inj (hC.symm.trans (Value.isList_iff_operandClass?.mp hlist))
    cases hb with
    | texts => cases hC'
    | lists hb hb' hcars' htail' =>
      have hitems := (Value.Agrees.lists hlist hlist' hcars htail).items_eq
      obtain ⟨hv, hvcars, hvtail, -⟩ := parts_of_isSum hlist hb hv
      obtain ⟨hw, hwcars, hwtail, -⟩ := parts_of_isSum hlist' hb' hw
      refine .lists hv hw ?_ ?_
      · -- the elements of both, and the tail of the second list
        rw [hvcars, hwcars, hitems, hcars']
      · rw [hvtail, hwtail, htail']

/-- Of three operands the first two or the last two may be added first. -/
theorem agrees_of_regrouped (hC : C ≠ .numbers) (ha : a.operandClass? = some C)
    (hb : b.operandClass? = some C) (hc : c.operandClass? = some C) (hu : IsSum a b u)
    (hv : IsSum u c v) (hx : IsSum b c x) (hw : IsSum a x w) : v.Agrees w := by
  cases C with
  | numbers => exact absurd rfl hC
  | texts =>
    obtain ⟨i, s, rfl⟩ := Value.exists_text ha
    obtain ⟨j, t, rfl⟩ := Value.exists_text hb
    obtain ⟨k, r, rfl⟩ := Value.exists_text hc
    obtain ⟨_, rfl⟩ := isSum_texts hu
    obtain ⟨_, rfl⟩ := isSum_texts hv
    obtain ⟨_, rfl⟩ := isSum_texts hx
    obtain ⟨_, rfl⟩ := isSum_texts hw
    rw [String.append_assoc]
    exact .texts
  | lists =>
    rw [← Value.isList_iff_operandClass?] at ha hb hc
    -- the dotted tail of the second list is an element in both sums, as it is among its items
    have huitems := items_of_isSum ha hb hu
    obtain ⟨hulist, -⟩ := parts_of_isSum ha hb hu
    obtain ⟨hxlist, hxcars, hxtail, -⟩ := parts_of_isSum hb hc hx
    obtain ⟨hvlist, hvcars, hvtail, -⟩ := parts_of_isSum hulist hc hv
    obtain ⟨hwlist, hwcars, hwtail, -⟩ := parts_of_isSum ha hxlist hw
    refine .lists hvlist hwlist ?_ ?_
    · rw [hvcars, hwcars, huitems, hxcars, List.append_assoc]
    · rw [hvtail, hwtail, hxtail]

/-! ### Any number of operands -/

/-- A value is what the others are added up to, one after another, from a first one on. -/
inductive AddsUp : Value → List Value → Value → Prop
  | nil {a : Value} : AddsUp a [] a
  | cons {a b u v : Value} {rest : List Value} : u.operandClass? = a.operandClass? → IsSum a b u →
      AddsUp u rest v → AddsUp a (b :: rest) v

theorem AddsUp.operandClass (h : AddsUp a rest v) : v.operandClass? = a.operandClass? := by
  induction h with
  | nil => rfl
  | cons hclass _ _ ih => exact ih.trans hclass

/-- Arguments of one class are added up. -/
theorem exists_fold (ha : a.operandClass? = some C) (hrest : ∀ v ∈ rest, v.operandClass? = some C)
    (next : ObjectId) : ∃ v n, v.operandClass? = some C ∧
      (Operator.calculate .add).fold (a :: rest) next = (.ok v, n) ∧ AddsUp a rest v := by
  have hfold : (Operator.calculate .add).fold (a :: rest) =
      rest.foldlM Calculation.add.apply a := by
    cases rest with
    | nil => rfl
    | cons b rest => exact Operator.fold_calculate .add a b rest
  rw [hfold]
  clear hfold
  -- on what is left to add; every sum is of the same class again
  induction rest generalizing a next with
  | nil => exact ⟨a, next, ha, rfl, .nil⟩
  | cons b rest ih =>
    obtain ⟨hb, hrest⟩ := List.forall_mem_cons.mp hrest
    obtain ⟨u, m, hu, hsum⟩ := exists_sum ha hb next
    obtain ⟨v, n, hv, hfold, hadds⟩ := ih hu hrest m
    refine ⟨v, n, hv, ?_, .cons (hu.trans ha.symm) ⟨next, m, hsum⟩ hadds⟩
    rw [List.foldlM_cons, Fresh.bind_of_ok hsum, hfold]

/-- From first values with the same in them, the sums have the same in them. -/
theorem agrees_of_addsUp (hC : C ≠ .numbers) (ha : a.operandClass? = some C)
    (hrest : ∀ v ∈ rest, v.operandClass? = some C) (h : a.Agrees b) (hv : AddsUp a rest v)
    (hw : AddsUp b rest w) : v.Agrees w := by
  induction hv generalizing b with
  | nil =>
    cases hw
    exact h
  | @cons a d u v rest hu hsum _ ih =>
    cases hw with
    | cons _ hsum' hw =>
      obtain ⟨hd, hrest⟩ := List.forall_mem_cons.mp hrest
      have hagrees := agrees_of_isSum h (.refl_of_class hC hd) ha hd hsum hsum'
      exact ih (hu.trans ha) hrest hagrees hw

/-- What is added to a value one after another may be added up before. -/
theorem agrees_of_addsUp_before (hC : C ≠ .numbers) (hx : x.operandClass? = some C)
    (hc : c.operandClass? = some C) (hrest : ∀ v ∈ rest, v.operandClass? = some C)
    (hv : AddsUp x (c :: rest) v) (hy : AddsUp c rest y) (hw : IsSum x y w) : v.Agrees w := by
  induction rest generalizing c v with
  | nil =>
    cases hy
    cases hv with
    | cons _ hsum hv =>
      cases hv
      have hrefl {a : Value} (ha : a.operandClass? = some C) := Value.Agrees.refl_of_class hC ha
      exact agrees_of_isSum (hrefl hx) (hrefl hc) hx hc hsum hw
  | cons d rest ih =>
    obtain ⟨hd, hrest⟩ := List.forall_mem_cons.mp hrest
    cases hy with
    | @cons _ _ e _ _ he hcd hy =>
      have he := he.trans hc
      -- the first two of what is added are added before, in front of the others
      obtain ⟨r, m, hr, hxe⟩ := exists_sum hx he 0
      obtain ⟨v', -, -, -, hv'⟩ := exists_fold hr hrest 0
      have hbefore := ih he hrest (.cons (hr.trans hx.symm) ⟨0, m, hxe⟩ hv') hy
      cases hv with
      | @cons _ _ p _ _ hp hxc hv =>
        cases hv with
        | @cons _ _ q _ _ hq hpd hv =>
          have hregrouped := agrees_of_regrouped hC hx hc hd hxc hpd hcd ⟨0, m, hxe⟩
          have hq := (hq.trans hp).trans hx
          exact (agrees_of_addsUp hC hq hrest hregrouped hv hv').trans hbefore

theorem addsUp_append {front : List Value} (h : AddsUp a (front ++ rest) v) :
    ∃ u, AddsUp a front u ∧ AddsUp u rest v := by
  induction front generalizing a with
  | nil => exact ⟨a, .nil, h⟩
  | cons b front ih =>
    cases h with
    | cons hclass hsum h =>
      obtain ⟨u, hfront, hrest⟩ := ih h
      exact ⟨u, .cons hclass hsum hfront, hrest⟩

/-- The arguments of `+` may be grouped in any way.

Several lists, or several texts, can be added, and so can those up to any place, those behind it
and the two sums; the two results have the same in them.

A list that is added to another one becomes the part of the sum behind the items of the other one,
the same object; the items of the sum are those of both. -/
theorem addition_regrouped {k : Nat} (hC : C ≠ .numbers)
    (hargs : ∀ v ∈ args, v.operandClass? = some C) (hk : 0 < k) (hlen : k < args.length)
    (next₁ next₂ next₃ next₄ : ObjectId) :
    let add := Operator.calculate .add
    (∃ v x y w n₁ n₂ n₃ n₄, add.fold args next₁ = (.ok v, n₁) ∧
      add.fold (args.take k) next₂ = (.ok x, n₂) ∧ add.fold (args.drop k) next₃ = (.ok y, n₃) ∧
      add.apply x y next₄ = (.ok w, n₄) ∧ v.Agrees w) ∧
    ∀ (a b : Value) (next : ObjectId), a.isList = true → b.isList = true → ∃ vs ws v n,
      a.listItems = .ok vs ∧ b.listItems = .ok ws ∧ add.apply a b next = (.ok v, n) ∧
      v.listItems = .ok (vs ++ ws) ∧ v.behind vs.length = b := by
  intro add
  constructor
  · -- neither group is empty, so each has a sum
    obtain ⟨a, front, hfront⟩ : ∃ a front, args.take k = a :: front :=
      List.exists_cons_of_length_pos (by rw [List.length_take]; omega)
    obtain ⟨c, rest, hrest⟩ : ∃ c rest, args.drop k = c :: rest :=
      List.exists_cons_of_length_pos (by rw [List.length_drop]; omega)
    have hsplit : args = a :: (front ++ c :: rest) := by
      rw [← List.cons_append, ← hfront, ← hrest, List.take_append_drop]
    rw [hsplit, List.forall_mem_cons, List.forall_mem_append, List.forall_mem_cons] at hargs
    obtain ⟨ha, hfronts, hc, hrests⟩ := hargs
    have hbehind : ∀ v ∈ c :: rest, v.operandClass? = some C :=
      List.forall_mem_cons.mpr ⟨hc, hrests⟩
    obtain ⟨v, n₁, -, hv, hall⟩ :=
      exists_fold ha (List.forall_mem_append.mpr ⟨hfronts, hbehind⟩) next₁
    obtain ⟨x, n₂, hxclass, hx, hbefore⟩ := exists_fold ha hfronts next₂
    obtain ⟨y, n₃, hyclass, hy, hafter⟩ := exists_fold hc hrests next₃
    obtain ⟨w, n₄, -, hw⟩ := exists_sum hxclass hyclass next₄
    refine ⟨v, x, y, w, n₁, n₂, n₃, n₄, hsplit ▸ hv, hfront ▸ hx, hrest ▸ hy, hw, ?_⟩
    -- the sum of all goes through one of the first group, which has cells of its own
    obtain ⟨u, hu, huv⟩ := addsUp_append hall
    obtain ⟨v', -, -, -, hxv'⟩ := exists_fold hxclass hbehind 0
    have hux := agrees_of_addsUp hC ha hfronts (.refl_of_class hC ha) hu hbefore
    have huclass := hu.operandClass.trans ha
    have hvv' := agrees_of_addsUp hC huclass hbehind hux huv hxv'
    exact hvv'.trans (agrees_of_addsUp_before hC hxclass hc hrests hxv' hafter ⟨next₄, n₄, hw⟩)
  · -- a sum of two lists ends with the cells of the second
    intro a b next ha hb
    obtain ⟨v, n, hvclass, hv⟩ := exists_sum (Value.isList_iff_operandClass?.mp ha)
      (Value.isList_iff_operandClass?.mp hb) next
    have hlist := Value.isList_iff_operandClass?.mpr hvclass
    obtain ⟨-, -, -, hbehind⟩ := parts_of_isSum ha hb ⟨next, n, hv⟩
    have hitems := items_of_isSum ha hb ⟨next, n, hv⟩
    refine ⟨a.items, b.items, v, n, if_pos ha, if_pos hb, hv, ?_, hbehind⟩
    rw [Value.listItems, if_pos hlist, hitems]

/-- A dotted list, the empty list and another dotted list: the first tail becomes an element, and
the last one is kept. -/
theorem addition_regrouped_of_dotted :
    let add := Operator.calculate .add
    let args : List Value := [.cons 0 .t (.text 1 "x"), .nil, .cons 2 .nil (.text 3 "y")]
    (OperandClass.lists ≠ .numbers ∧ (∀ v ∈ args, v.operandClass? = some .lists) ∧ 0 < 2 ∧
      2 < args.length) ∧
    add.fold args 4 =
      (.ok (.cons 7 .t (.cons 6 (.text 1 "x") (.cons 2 .nil (.text 3 "y")))), 8) ∧
    ∃ v x y w n₁ n₂ n₃ n₄, add.fold args 4 = (.ok v, n₁) ∧ add.fold (args.take 2) 4 = (.ok x, n₂) ∧
      add.fold (args.drop 2) 4 = (.ok y, n₃) ∧ add.apply x y 4 = (.ok w, n₄) ∧ v.Agrees w := by
  intro add args
  have hclass : ∀ v ∈ args, v.operandClass? = some OperandClass.lists := by decide
  have hC : OperandClass.lists ≠ .numbers := by decide
  refine ⟨⟨hC, hclass, by decide, by decide⟩, rfl, ?_⟩
  exact (addition_regrouped hC hclass (k := 2) (by decide) (by decide) 4 4 4 4).1

end PocketLisp
