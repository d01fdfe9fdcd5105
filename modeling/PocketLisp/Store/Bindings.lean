/-
PocketLisp/Store/Bindings.lean

Finite maps from symbols, as lists of pairs in the order in which the symbols
were first bound.  Each symbol is bound once.
-/
import PocketLisp.Symbol.Table

namespace PocketLisp

/-- A finite map from symbols. -/
abbrev Bindings (α : Type) := List (Symbol × α)

namespace Bindings

variable {α : Type}

/-- What a symbol is bound to. -/
def get? (s : Symbol) : Bindings α → Option α
  | [] => none
  | (r, a) :: rest => if r = s then some a else get? s rest

/-- Binds a symbol anew. -/
def put (s : Symbol) (a : α) : Bindings α → Bindings α
  | [] => [(s, a)]
  | (r, b) :: rest => if r = s then (s, a) :: rest else (r, b) :: put s a rest

/-- The bound symbols in the order of their names. -/
def sortedKeys (bs : Bindings α) : List Symbol :=
  (bs.map Prod.fst).mergeSort fun a b => !(b.name < a.name)

@[simp] theorem get?_put_same (s : Symbol) (a : α) (bs : Bindings α) :
    get? s (put s a bs) = some a := by
  induction bs with
  | nil => simp [put, get?]
  | cons b rest ih =>
    obtain ⟨r, c⟩ := b
    by_cases h : r = s <;> simp [put, get?, h, ih]

theorem get?_put_of_ne {s r : Symbol} (h : r ≠ s) (a : α) (bs : Bindings α) :
    get? r (put s a bs) = get? r bs := by
  induction bs with
  | nil => simp [put, get?, Ne.symm h]
  | cons b rest ih =>
    obtain ⟨q, c⟩ := b
    by_cases hq : q = s
    · subst hq
      simp [put, get?, Ne.symm h]
    · by_cases hr : q = r
      · subst hr
        simp [put, get?, hq]
      · simp [put, get?, hq, hr, ih]

end Bindings

end PocketLisp
