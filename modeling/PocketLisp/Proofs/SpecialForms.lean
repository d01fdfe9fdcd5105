/-
PocketLisp/Proofs/SpecialForms.lean

Special forms as values: which lists are a special form with given operands,
and what their evaluation comes to, one nested step deeper.
-/
import PocketLisp.Proofs.Levels
import PocketLisp.Proofs.Steps

namespace PocketLisp

variable {v : Value} {f : SpecialForm} {operands : List Value} {env : FrameId} {s t : Store}

/-- A list that is a special form with these operands. -/
def Value.IsForm (v : Value) (f : SpecialForm) (operands : List Value) : Prop :=
  ∃ id head tail, v = .cons id (.symbol head) tail ∧ head.specialForm? = some f ∧
    tail.listItems = .ok operands

/-- What a special form does does not depend on how its head is called, but for faults of arity. -/
theorem Value.IsForm.form_eq (h : v.IsForm f operands) :
    ∃ name, ∀ (self : Recur) (rounds : Nat) (env : FrameId),
      Run.form self rounds v env = Run.specialForm self rounds f name operands env := by
  obtain ⟨id, head, tail, rfl, hhead, htail⟩ := h
  refine ⟨head.name, fun self rounds env => ?_⟩
  have hspecial : Run.specialHead? (.symbol head) = some (f, head.name) := by
    rw [Run.specialHead?, hhead]
    rfl
  simp only [Run.form, hspecial, htail]
  rfl

/-- A special form is a list, so it is evaluated in a nested step. -/
theorem Value.IsForm.nestsIn? (h : v.IsForm f operands) (env : FrameId) :
    (Call.eval v env).nestsIn? = some env := by
  obtain ⟨id, head, tail, rfl, -⟩ := h
  rfl

/-- A special form is evaluated in a nested step, where there is room. -/
theorem Value.IsForm.run_eq (h : v.IsForm f operands) (hroom : s.depthFault? env = none)
    (rounds calls : Nat) : ∃ name, run rounds (calls + 1) (.eval v env) s =
      ((Run.specialForm (run rounds calls) rounds f name operands env (s.deepen env)).1,
        (Run.specialForm (run rounds calls) rounds f name operands env (s.deepen env)).2.riseIn
          (s.realmOf env)) := by
  obtain ⟨name, hform⟩ := h.form_eq
  refine ⟨name, ?_⟩
  rw [run, Call.nested, h.nestsIn?]
  simp only [hroom, perform, hform]
  rfl

/-- A special form that is blind to the nesting does what it would do without the nested step. -/
theorem Value.IsForm.run_eq_of_blind (h : v.IsForm f operands) (hroom : s.depthFault? env = none)
    {m : Store → Except Stop Value × Store} (hm : Store.Blind m)
    (hform : ∀ (self : Recur) (rounds : Nat) (name : String) (u : Store),
      Run.specialForm self rounds f name operands env u = m u) (rounds calls : Nat) :
    run rounds (calls + 1) (.eval v env) s = m s := by
  obtain ⟨name, hrun⟩ := h.run_eq hroom rounds calls
  obtain ⟨hresult, hstore⟩ := hm.nested (Store.depthFault?_eq_none_iff.mp hroom)
  rw [hrun, hform, hresult, hstore]

end PocketLisp
