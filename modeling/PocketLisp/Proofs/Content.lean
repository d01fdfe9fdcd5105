/-
PocketLisp/Proofs/Content.lean

The content of values.

`Value.bare` forgets the numbers by which objects of the same content are told
apart.  Values of the same bare form are equal (`Value.equal_of_bare`), unless
NaN is among their numbers, and operations that look at content only do the
same on them.
-/
import PocketLisp.Run.Expansion
import PocketLisp.Value.Equality
import PocketLisp.Value.Written

namespace PocketLisp

namespace Value

/-- A value without the numbers of its cells and texts. -/
def bare : Value → Value
  | .text _ content => .text 0 content
  | .cons _ a d => .cons 0 a.bare d.bare
  | v => v

/-- The list of the bare forms of values. -/
def bareList (items : List Value) : Value :=
  items.foldr (fun v tail => .cons 0 v.bare tail) .nil

/-- The numbers in a value. -/
def numbers : Value → List Float
  | .number x => [x]
  | .cons _ a d => a.numbers ++ d.numbers
  | _ => []

@[simp] theorem bareList_nil : bareList [] = .nil := rfl

@[simp] theorem bareList_cons (v : Value) (items : List Value) :
    bareList (v :: items) = .cons 0 v.bare (bareList items) := rfl

theorem bareList_congr {vs ws : List Value} (h : vs.map bare = ws.map bare) :
    bareList vs = bareList ws := by
  induction vs generalizing ws with
  | nil =>
    cases ws with
    | nil => rfl
    | cons w ws => cases h
  | cons v vs ih =>
    cases ws with
    | nil => cases h
    | cons w ws =>
      obtain ⟨hv, hvs⟩ := List.cons.inj h
      rw [bareList_cons, bareList_cons, hv, ih hvs]

/-- New cells in front of a tail have the content of their items. -/
theorem bare_chain (next : ObjectId) (reversed : List Value) (tail : Value) :
    (chain next reversed tail).1.bare =
      reversed.foldl (fun tail v => .cons 0 v.bare tail) tail.bare := by
  induction reversed generalizing next tail with
  | nil => rfl
  | cons v reversed ih => exact ih (next + 1) (.cons next v tail)

theorem bare_chain_reverse (next : ObjectId) (items : List Value) (tail : Value) :
    (chain next items.reverse tail).1.bare =
      items.foldr (fun v tail => .cons 0 v.bare tail) tail.bare := by
  rw [bare_chain, List.foldl_reverse]

/-! ### What is read off the content -/

section Content

variable (v : Value)

@[simp] theorem bare_bare : v.bare.bare = v.bare := by
  induction v with
  | cons id a d iha ihd => simp [bare, iha, ihd]
  | _ => rfl

@[simp] theorem symbol?_bare : v.bare.symbol? = v.symbol? := by cases v <;> rfl

@[simp] theorem isCons_bare : v.bare.isCons = v.isCons := by cases v <;> rfl

@[simp] theorem isList_bare : v.bare.isList = v.isList := by cases v <;> rfl

theorem cars_bare : v.bare.cars = v.cars.map bare := by
  induction v with
  | cons id a d _ ih => simp [bare, cars, ih]
  | _ => rfl

theorem finalTail_bare : v.bare.finalTail = v.finalTail.bare := by
  induction v with
  | cons id a d _ ih => exact ih
  | _ => rfl

theorem tailItems_bare : v.bare.tailItems = v.tailItems.map bare := by
  induction v with
  | cons id a d _ ih => simp [bare, tailItems, ih]
  | _ => rfl

theorem items_bare : v.bare.items = v.items.map bare := by
  cases v with
  | cons id a d => simp [bare, tailItems_bare]
  | _ => rfl

end Content

mutual

theorem printOnto_bare (acc : String) (v : Value) : printOnto acc v.bare = printOnto acc v := by
  cases v with
  | cons id a d => simp only [bare, printOnto, printOnto_bare, printTailOnto_bare]
  | _ => simp only [bare, printOnto]

theorem printTailOnto_bare (acc : String) (v : Value) :
    printTailOnto acc v.bare = printTailOnto acc v := by
  cases v with
  | cons id a d => simp only [bare, printTailOnto, printOnto_bare, printTailOnto_bare]
  | _ => simp only [bare, printTailOnto]

end

@[simp] theorem print_bare (v : Value) : v.bare.print = v.print := printOnto_bare "" v

theorem cars_bareList (items : List Value) : (bareList items).cars = items.map bare := by
  induction items with
  | nil => rfl
  | cons v items ih => simp [cars, ih]

theorem finalTail_bareList (items : List Value) : (bareList items).finalTail = .nil := by
  induction items with
  | nil => rfl
  | cons v items ih => exact ih

end Value

/-- Finite numbers are equal to themselves. -/
theorem Number.beq_self {x : Float} (h : x.isFinite = true) : (x == x) = true := by
  have hfinite : x.toModel.unpack.isFinite = true := h
  show (x.toModel.unpack.compare x.toModel.unpack == some .eq) = true
  -- a number that is not finite is no case
  cases hx : x.toModel.unpack with
  | notANumber =>
    rw [hx] at hfinite
    cases hfinite
  | infinity s =>
    rw [hx] at hfinite
    cases hfinite
  | zero s => cases s <;> rfl
  | finite s m e hm =>
    -- neither sign changes that exponent and mantissa are compared with themselves
    have hsame : (compare e e).then (compare m m) = .eq := by
      rw [Std.ReflOrd.compare_self, Std.ReflOrd.compare_self]
      rfl
    cases s with
    | positive =>
      show (some ((compare e e).then (compare m m)) == some .eq) = true
      rw [hsame]
      rfl
    | negative =>
      show (some ((compare e e).then (compare m m)).swap == some .eq) = true
      rw [hsame]
      rfl

namespace Value

/-- Values of the same bare form are equal, if their numbers are finite. -/
theorem equal_of_bare {v w : Value} (h : v.bare = w.bare)
    (hv : ∀ x ∈ v.numbers, x.isFinite = true) : v.equal w = true := by
  -- numbers are compared, as the content of a list is; all else is an object or an atom
  induction v generalizing w with
  | number x =>
    cases w with
    | number y =>
      obtain rfl : x = y := by simpa [bare] using h
      exact Number.beq_self (hv x (by simp [numbers]))
    | _ => simp [bare] at h
  | cons id a d iha ihd =>
    cases w with
    | cons id' a' d' =>
      obtain ⟨ha, hd⟩ : a.bare = a'.bare ∧ d.bare = d'.bare := by simpa [bare] using h
      have hequal := iha ha fun x hx => hv x (List.mem_append_left _ hx)
      have hequal' := ihd hd fun x hx => hv x (List.mem_append_right _ hx)
      simp [equal, hequal, hequal']
    | _ => simp [bare] at h
  | _ => cases w <;> simp_all [bare, equal]

end Value

end PocketLisp
