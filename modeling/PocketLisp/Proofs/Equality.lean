/-
PocketLisp/Proofs/Equality.lean

The two equalities of values as relations, and what the shortcut for cells
changes.

A number stands for one object, so two values that meet in one program agree
on what the cell and the text of a number are: they are `MadeOf` the same
objects.  This is all that is known of how values share their cells and texts.
Nothing here depends on how a value came about.

Both equalities are partial equivalences, and identity refines equality
(`equalities`).  The only value that is not equal to itself is NaN: a cell is
equal to itself whatever it holds, because its content is not looked at.

So the shortcut is no mere shortcut.  `equalThroughout` compares the content
of all cells, and differs from `equal` exactly if the two values are equal and
there is a cell with NaN in it that both have at the same place
(`equal_ne_equalThroughout_iff`, `equal_of_cell_with_nan`).
-/
import PocketLisp.Proofs.Content

namespace PocketLisp

/-! ### Equal numbers -/

namespace Number

open Float.Model (UnpackedFloat)

/-- The point of the number line that an exact value is, if it is one: both zeros are the same. -/
def point? : UnpackedFloat → Option UnpackedFloat
  | .notANumber => none
  | .zero _ => some (.zero .positive)
  | u => some u

/-- Where the points differ there is no common one. -/
theorem not_common {u v : UnpackedFloat} (h : point? u ≠ point? v) :
    ¬ ∃ p, point? u = some p ∧ point? v = some p :=
  fun ⟨_, hu, hv⟩ => h (hu.trans hv.symm)

theorem finite_common {s s' : UnpackedFloat.Sign} {m m' : Nat} {e e' : Int} {h : 0 < m}
    {h' : 0 < m'} :
    (∃ p, point? (.finite s m e h) = some p ∧ point? (.finite s' m' e' h') = some p) ↔
      s = s' ∧ e = e' ∧ m = m' := by
  constructor
  · rintro ⟨p, hp, hp'⟩
    cases hp
    cases hp'
    exact ⟨rfl, rfl, rfl⟩
  · rintro ⟨rfl, rfl, rfl⟩
    exact ⟨_, rfl, rfl⟩

theorem compare_eq_iff (u v : UnpackedFloat) :
    u.compare v = some .eq ↔ ∃ p, point? u = some p ∧ point? v = some p := by
  cases u with
  | notANumber => cases v <;> exact iff_of_false (by rintro ⟨⟩) (by rintro ⟨_, ⟨⟩, -⟩)
  | infinity s =>
    cases v with
    | infinity s' =>
      cases s <;> cases s'
      · exact iff_of_true rfl ⟨_, rfl, rfl⟩
      · exact iff_of_false (by rintro ⟨⟩) (not_common (by rintro ⟨⟩))
      · exact iff_of_false (by rintro ⟨⟩) (not_common (by rintro ⟨⟩))
      · exact iff_of_true rfl ⟨_, rfl, rfl⟩
    | _ => cases s <;> exact iff_of_false (by rintro ⟨⟩) (not_common (by rintro ⟨⟩))
  | zero s =>
    cases v with
    | zero s' => exact iff_of_true rfl ⟨_, rfl, rfl⟩
    | infinity s' | finite s' =>
      cases s' <;> exact iff_of_false (by rintro ⟨⟩) (not_common (by rintro ⟨⟩))
    | notANumber => exact iff_of_false (by rintro ⟨⟩) (not_common (by rintro ⟨⟩))
  | finite s m e =>
    cases v with
    | finite s' m' e' =>
      -- the mantissas are compared after the exponents
      have hsame : (compare e e').then (compare m m') = .eq ↔ e = e' ∧ m = m' :=
        Ordering.then_eq_eq.trans (and_congr Std.compare_eq_iff_eq Std.compare_eq_iff_eq)
      rw [finite_common]
      cases s <;> cases s'
      · refine Option.some_inj.trans (Ordering.swap_eq_eq.trans ?_)
        exact hsame.trans (and_iff_right rfl).symm
      · exact iff_of_false (by rintro ⟨⟩) (by rintro ⟨⟨⟩, -⟩)
      · exact iff_of_false (by rintro ⟨⟩) (by rintro ⟨⟨⟩, -⟩)
      · exact Option.some_inj.trans (hsame.trans (and_iff_right rfl).symm)
    | infinity s' => cases s' <;> exact iff_of_false (by rintro ⟨⟩) (not_common (by rintro ⟨⟩))
    | _ => cases s <;> exact iff_of_false (by rintro ⟨⟩) (not_common (by rintro ⟨⟩))

/-- Two numbers are equal if they are the same point. -/
theorem beq_iff (x y : Float) :
    (x == y) = true ↔ ∃ p, point? (exact x) = some p ∧ point? (exact y) = some p := by
  have hcompare : (x == y) = ((exact x).compare (exact y) == some .eq) := rfl
  rw [hcompare, beq_iff_eq, compare_eq_iff]

theorem beq_comm (x y : Float) : (x == y) = (y == x) := by
  rw [Bool.eq_iff_iff, beq_iff, beq_iff]
  exact exists_congr fun p => and_comm

theorem beq_trans {x y z : Float} (hxy : (x == y) = true) (hyz : (y == z) = true) :
    (x == z) = true := by
  obtain ⟨p, hx, hy⟩ := (beq_iff x y).mp hxy
  obtain ⟨q, hy', hz⟩ := (beq_iff y z).mp hyz
  obtain rfl : p = q := Option.some.inj (hy.symm.trans hy')
  exact (beq_iff x z).mpr ⟨p, hx, hz⟩

/-- NaN is the only number that is not equal to itself. -/
theorem beq_self_iff (x : Float) : (x == x) = true ↔ x.isNaN = false := by
  have hnan : x.isNaN = (exact x).isNaN := rfl
  rw [beq_iff, hnan]
  cases exact x with
  | notANumber => exact iff_of_false (fun ⟨_, h, _⟩ => by cases h) (by decide)
  | _ => exact iff_of_true ⟨_, rfl, rfl⟩ rfl

end Number

namespace Value

/-! ### Objects -/

/-- What the numbers of objects stand for. -/
structure Objects where
  cell : ObjectId → Value × Value
  text : ObjectId → String

/-- All cells and texts of a value are among the objects. -/
def MadeOf (o : Objects) : Value → Prop
  | .text i content => o.text i = content
  | .cons i a d => o.cell i = (a, d) ∧ a.MadeOf o ∧ d.MadeOf o
  | _ => True

/-- A value is NaN. -/
def IsNaN (v : Value) : Prop := ∃ x, v = .number x ∧ x.isNaN = true

/-- NaN is among the numbers in a value. -/
def HoldsNaN (v : Value) : Prop := ∃ x ∈ v.numbers, x.isNaN = true

variable {o : Objects} {a b c : Value}

theorem isNaN_number {x : Float} : (number x).IsNaN ↔ x.isNaN = true :=
  ⟨fun ⟨_, heq, h⟩ => number.inj heq ▸ h, fun h => ⟨x, rfl, h⟩⟩

theorem not_isNaN (h : ∀ x, a ≠ number x) : ¬ a.IsNaN := fun ⟨x, hx, _⟩ => h x hx

theorem holdsNaN_number {x : Float} : (number x).HoldsNaN ↔ x.isNaN = true := by
  simp only [HoldsNaN, numbers, List.mem_singleton, exists_eq_left]

theorem holdsNaN_cons {i : ObjectId} {d : Value} :
    (cons i a d).HoldsNaN ↔ a.HoldsNaN ∨ d.HoldsNaN := by
  simp only [HoldsNaN, numbers, List.mem_append, or_and_right, exists_or]

/-- Cells of the same number have the same content. -/
theorem MadeOf.cell_eq {i : ObjectId} {d e : Value} (hx : (cons i a d).MadeOf o)
    (hy : (cons i b e).MadeOf o) : a = b ∧ d = e :=
  Prod.mk.inj (hx.1.symm.trans hy.1)

/-- The objects of lists that have the cell `0` as their only element. -/
def Objects.around (a d : Value) : Objects where
  cell i := if i = 0 then (a, d) else (cons 0 a d, nil)
  text _ := ""

theorem madeOf_around {i : ObjectId} {d : Value} (hi : i ≠ 0) (ha : a.MadeOf (.around a d))
    (hd : d.MadeOf (.around a d)) : (cons i (cons 0 a d) nil).MadeOf (.around a d) :=
  ⟨if_neg hi, ⟨rfl, ha, hd⟩, trivial⟩

/-! ### Identity -/

theorem same_comm (a b : Value) : a.same b = b.same a := by
  cases a <;> cases b <;> simp only [same]
  case number.number x y => exact Number.beq_comm x y
  all_goals exact Bool.beq_comm

theorem same_trans (hab : a.same b = true) (hbc : b.same c = true) : a.same c = true := by
  cases a <;> cases b <;> simp only [same, Bool.false_eq_true] at hab <;>
    cases c <;> simp only [same, Bool.false_eq_true] at hbc ⊢
  case number.number.number => exact Number.beq_trans hab hbc
  all_goals exact beq_iff_eq.mpr ((beq_iff_eq.mp hab).trans (beq_iff_eq.mp hbc))

theorem same_self_iff (a : Value) : a.same a = true ↔ ¬ a.IsNaN := by
  cases a with
  | number x => rw [same, Number.beq_self_iff, isNaN_number, Bool.not_eq_true]
  | _ => exact iff_of_true (by simp [same]) (not_isNaN fun _ h => by cases h)

/-! ### Equality -/

theorem equal_comm (a b : Value) : a.equal b = b.equal a := by
  induction a generalizing b with
  | cons i a d iha ihd =>
    cases b with
    | cons j b e => rw [equal, equal, iha b, ihd e, Bool.beq_comm (a := i)]
    | _ => rfl
  | number x =>
    cases b with
    | number y => exact Number.beq_comm x y
    | _ => rfl
  | text | symbol | function =>
    cases b <;> simp only [equal]
    exact Bool.beq_comm
  | _ => cases b <;> rfl

theorem equal_cons {i j : ObjectId} {d e : Value} :
    (cons i a d).equal (cons j b e) = true ↔ i = j ∨ a.equal b = true ∧ d.equal e = true := by
  simp [equal]

theorem equal_self_iff (a : Value) : a.equal a = true ↔ ¬ a.IsNaN := by
  cases a with
  | number x => rw [equal, Number.beq_self_iff, isNaN_number, Bool.not_eq_true]
  | _ => exact iff_of_true (by simp [equal]) (not_isNaN fun _ h => by cases h)

/-- Objects that are identical are equal. -/
theorem equal_of_same (ha : a.MadeOf o) (hb : b.MadeOf o) (h : a.same b = true) :
    a.equal b = true := by
  cases a <;> cases b <;> simp only [same, Bool.false_eq_true] at h
  case text.text i x j y =>
    obtain rfl := beq_iff_eq.mp h
    exact beq_iff_eq.mpr (ha.symm.trans hb)
  case cons.cons => exact equal_cons.mpr (.inl (beq_iff_eq.mp h))
  case nil.nil | t.t => rfl
  all_goals exact h

theorem equal_trans (ha : a.MadeOf o) (hb : b.MadeOf o) (hc : c.MadeOf o)
    (hab : a.equal b = true) (hbc : b.equal c = true) : a.equal c = true := by
  induction a generalizing b c with
  | cons i a d iha ihd =>
    cases b with
    | cons j b e =>
      cases c with
      | cons k c f =>
        rcases equal_cons.mp hab with rfl | ⟨hcar, hcdr⟩
        · -- the first two are one cell, so the last two are compared
          obtain ⟨rfl, rfl⟩ := ha.cell_eq hb
          exact hbc
        · rcases equal_cons.mp hbc with rfl | ⟨hcar', hcdr'⟩
          · obtain ⟨rfl, rfl⟩ := hb.cell_eq hc
            exact hab
          · exact equal_cons.mpr (.inr ⟨iha ha.2.1 hb.2.1 hc.2.1 hcar hcar',
              ihd ha.2.2 hb.2.2 hc.2.2 hcdr hcdr'⟩)
      | _ => cases hbc
    | _ => cases hab
  | number x =>
    cases b with
    | number y =>
      cases c with
      | number z => exact Number.beq_trans hab hbc
      | _ => cases hbc
    | _ => cases hab
  | _ =>
    cases b <;> simp only [equal, Bool.false_eq_true] at hab
    all_goals cases c <;> simp only [equal, Bool.false_eq_true] at hbc ⊢
    all_goals exact beq_iff_eq.mpr ((beq_iff_eq.mp hab).trans (beq_iff_eq.mp hbc))

/-! ### Without the shortcut -/

/-- Whether two values have equal content, found out by comparing all of it. -/
def equalThroughout : Value → Value → Bool
  | .nil, .nil | .t, .t => true
  | .number x, .number y => x == y
  | .text _ x, .text _ y => x == y
  | .symbol s, .symbol r => s == r
  | .cons _ a d, .cons _ b e => equalThroughout a b && equalThroughout d e
  | .function f, .function g => f == g
  | _, _ => false

/-- Two values that are walked through at once come to one cell in which there is NaN. -/
inductive SharesNaN : Value → Value → Prop
  | here {i a b d e} : (cons i a d).HoldsNaN → SharesNaN (cons i a d) (cons i b e)
  | car {i j a b d e} : SharesNaN a b → SharesNaN (cons i a d) (cons j b e)
  | cdr {i j a b d e} : SharesNaN d e → SharesNaN (cons i a d) (cons j b e)

theorem equalThroughout_cons {i j : ObjectId} {d e : Value} :
    (cons i a d).equalThroughout (cons j b e) = true ↔
      a.equalThroughout b = true ∧ d.equalThroughout e = true := by
  simp [equalThroughout]

theorem SharesNaN.holdsNaN (h : a.SharesNaN b) : a.HoldsNaN := by
  induction h with
  | here h => exact h
  | car _ ih => exact holdsNaN_cons.mpr (.inl ih)
  | cdr _ ih => exact holdsNaN_cons.mpr (.inr ih)

/-- Where NaN is met on the way, nothing is found equal. -/
theorem not_holdsNaN_of_equalThroughout (h : a.equalThroughout b = true) : ¬ a.HoldsNaN := by
  induction a generalizing b with
  | cons i a d iha ihd =>
    cases b with
    | cons j b e =>
      obtain ⟨hcar, hcdr⟩ := equalThroughout_cons.mp h
      rw [holdsNaN_cons, not_or]
      exact ⟨iha hcar, ihd hcdr⟩
    | _ => cases h
  | number x =>
    cases b with
    | number y =>
      -- back and forth, the number would be equal to itself
      have hback : (y == x) = true := (Number.beq_comm y x).trans h
      have hself := Number.beq_trans h hback
      rwa [holdsNaN_number, Bool.not_eq_true, ← Number.beq_self_iff]
    | _ => cases h
  | _ => exact fun ⟨_, hx, _⟩ => List.not_mem_nil hx

theorem equalThroughout_self (h : ¬ a.HoldsNaN) : a.equalThroughout a = true := by
  induction a with
  | cons i a d iha ihd =>
    rw [holdsNaN_cons, not_or] at h
    exact equalThroughout_cons.mpr ⟨iha h.1, ihd h.2⟩
  | number x =>
    rw [holdsNaN_number, Bool.not_eq_true] at h
    exact (Number.beq_self_iff x).mpr h
  | _ => simp [equalThroughout]

/-- The shortcut takes no equality away. -/
theorem equal_of_equalThroughout (h : a.equalThroughout b = true) : a.equal b = true := by
  induction a generalizing b with
  | cons i a d iha ihd =>
    cases b with
    | cons j b e =>
      obtain ⟨hcar, hcdr⟩ := equalThroughout_cons.mp h
      exact equal_cons.mpr (.inr ⟨iha hcar, ihd hcdr⟩)
    | _ => cases h
  | _ => cases b <;> exact h

/-- What is equal only by the shortcut has a cell with NaN in common. -/
theorem equalThroughout_of_equal (ha : a.MadeOf o) (hb : b.MadeOf o) (h : a.equal b = true)
    (hnan : ¬ a.SharesNaN b) : a.equalThroughout b = true := by
  induction a generalizing b with
  | cons i a d iha ihd =>
    cases b with
    | cons j b e =>
      rcases equal_cons.mp h with rfl | ⟨hcar, hcdr⟩
      · -- what is skipped here is a comparison of the cell with itself, in which only NaN fails
        obtain ⟨rfl, rfl⟩ := ha.cell_eq hb
        exact equalThroughout_self fun hholds => hnan (.here hholds)
      · exact equalThroughout_cons.mpr ⟨iha ha.2.1 hb.2.1 hcar fun hshares => hnan (.car hshares),
          ihd ha.2.2 hb.2.2 hcdr fun hshares => hnan (.cdr hshares)⟩
    | _ => cases h
  | _ => cases b <;> exact h

end Value

/-! ### Main results -/

/-- The two equalities are partial equivalences, of which identity is the finer one.

The values may share cells and texts in any way.  Both relations are symmetric and transitive, and
relate every value to itself but NaN. -/
theorem equalities {o : Value.Objects} {a b c : Value} (ha : a.MadeOf o) (hb : b.MadeOf o)
    (hc : c.MadeOf o) :
    (a.same b = true → a.equal b = true) ∧
    (a.same b = b.same a ∧ a.equal b = b.equal a) ∧
    ((a.same b = true → b.same c = true → a.same c = true) ∧
      (a.equal b = true → b.equal c = true → a.equal c = true)) ∧
    (a.same a = true ↔ ¬ a.IsNaN) ∧ (a.equal a = true ↔ ¬ a.IsNaN) :=
  ⟨Value.equal_of_same ha hb, ⟨Value.same_comm a b, Value.equal_comm a b⟩,
    ⟨Value.same_trans, Value.equal_trans ha hb hc⟩, Value.same_self_iff a, Value.equal_self_iff a⟩

/-- Two lists that have a cell with NaN in common, and that cell on its own. -/
theorem equalities_of_shared_cell :
    let shared : Value := .cons 0 (.number Number.nan) .nil
    let a : Value := .cons 1 shared .nil
    let b : Value := .cons 2 shared .nil
    (a.same b = false ∧ a.equal b = true) ∧ b.equal a = true ∧ a.equal a = true := by
  intro shared a b
  have ha : a.MadeOf _ := Value.madeOf_around (by decide) trivial trivial
  have hb : b.MadeOf _ := Value.madeOf_around (by decide) trivial trivial
  have hab : a.equal b = true := by decide +kernel
  obtain ⟨-, ⟨-, hcomm⟩, ⟨-, htrans⟩, -, -⟩ := equalities ha hb ha
  have hba : b.equal a = true := hcomm.symm.trans hab
  exact ⟨⟨by decide, hab⟩, hba, htrans hab hba⟩

/-- When the shortcut for cells changes the answer.

Without it, two values are found equal that are equal with it, unless there is a cell with NaN in it
that both have at the same place. -/
theorem equal_ne_equalThroughout_iff {o : Value.Objects} {a b : Value} (ha : a.MadeOf o)
    (hb : b.MadeOf o) :
    a.equal b ≠ a.equalThroughout b ↔ a.equal b = true ∧ a.SharesNaN b := by
  cases hequal : a.equal b with
  | false =>
    have hthroughout : a.equalThroughout b = false := Bool.eq_false_iff.mpr fun h => by
      rw [Value.equal_of_equalThroughout h] at hequal
      cases hequal
    simp [hthroughout]
  | true =>
    refine ⟨fun hne => ⟨rfl, ?_⟩, fun ⟨_, hnan⟩ heq => ?_⟩
    · exact Classical.byContradiction fun hnan =>
        hne (Value.equalThroughout_of_equal ha hb hequal hnan).symm
    · exact Value.not_holdsNaN_of_equalThroughout heq.symm hnan.holdsNaN

/-- Two lists that have one list of NaN as their element are equal by the shortcut only. -/
theorem equal_ne_equalThroughout_of_nested :
    let shared : Value := .cons 0 (.number Number.nan) .nil
    let a : Value := .cons 1 shared .nil
    let b : Value := .cons 2 shared .nil
    a.equal b ≠ a.equalThroughout b := by
  intro shared a b
  have ha : a.MadeOf _ := Value.madeOf_around (by decide) trivial trivial
  have hb : b.MadeOf _ := Value.madeOf_around (by decide) trivial trivial
  have hnan : Number.nan.isNaN = true := by decide +kernel
  have hshares : a.SharesNaN b := .car (.here ⟨Number.nan, List.mem_cons_self, hnan⟩)
  exact (equal_ne_equalThroughout_iff ha hb).mpr ⟨by decide +kernel, hshares⟩

/-- A list of NaN is equal to itself, and no other list of NaN is equal to it. -/
theorem equal_of_cell_with_nan :
    let v : Value := .cons 0 (.number Number.nan) .nil
    let w : Value := .cons 1 (.number Number.nan) .nil
    v.equal v = true ∧ v.equalThroughout v = false ∧ v.equal w = false := by
  decide +kernel

end PocketLisp
