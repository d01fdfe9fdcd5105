/-
PocketLisp/Proofs/Steps.lean

Runs and readings taken apart: what a sequence, a choice or a list of steps
does in a store, in equations that can be rewritten with.
-/
import PocketLisp.Interpreter

namespace PocketLisp

/-- What cuts a run short: a nested step for which there was no room, or an allowance that was too
small. -/
inductive Stop.Short : Stop → Prop
  | unfinished : Short .unfinished
  | stackExhausted (limit : Nat) : Short (.fault (.stackExhausted limit))

instance Except.decidableEq {ε α : Type} [DecidableEq ε] [DecidableEq α] :
    DecidableEq (Except ε α)
  | .error e, .error e' => decidable_of_iff (e = e') ⟨congrArg _, Except.error.inj⟩
  | .ok a, .ok a' => decidable_of_iff (a = a') ⟨congrArg _, Except.ok.inj⟩
  | .error _, .ok _ | .ok _, .error _ => isFalse (by rintro ⟨⟩)

variable {α β : Type}

namespace Run

@[simp] theorem pure_apply (a : α) (s : Store) : (pure a : Run α) s = (.ok a, s) := rfl

@[simp] theorem throw_apply (e : Stop) (s : Store) : (throw e : Run α) s = (.error e, s) := rfl

@[simp] theorem fault_apply (f : Fault) (s : Store) :
    (Run.fault f : Run α) s = (.error (.fault f), s) := rfl

@[simp] theorem unfinished_apply (s : Store) :
    (Run.unfinished : Run α) s = (.error .unfinished, s) := rfl

@[simp] theorem read_apply (f : Store → α) (s : Store) : Run.read f s = (.ok (f s), s) := rfl

@[simp] theorem update_apply (f : Store → α × Store) (s : Store) :
    Run.update f s = (.ok (f s).1, (f s).2) := rfl

@[simp] theorem change_apply (f : Store → Store) (s : Store) :
    Run.change f s = (.ok (), f s) := rfl

theorem ofFresh_apply (body : Fresh α) (s : Store) :
    Run.ofFresh body s =
      Run.ofExcept (body s.nextId).1 { s with nextId := (body s.nextId).2 } := by
  rcases e : body s.nextId with ⟨f | a, next⟩ <;> simp only [Run.ofFresh, e] <;> rfl

theorem observe_apply (m : Run α) (s : Store) :
    Run.observe m s = match m s with
      | (.ok a, t) => (.ok (.ok a), t)
      | (.error (.fault f), t) => (.ok (.error f), t)
      | (.error .unfinished, t) => (.error .unfinished, t) := rfl

theorem bind_apply (m : Run α) (k : α → Run β) (s : Store) :
    (m >>= k) s = match m s with
      | (.ok a, t) => k a t
      | (.error e, t) => (.error e, t) := by
  show ExceptT.bindCont k (m s).1 (m s).2 = _
  rcases m s with ⟨e | a, t⟩ <;> rfl

theorem bind_apply_ok {m : Run α} {k : α → Run β} {s t : Store} {a : α} (h : m s = (.ok a, t)) :
    (m >>= k) s = k a t := by
  rw [bind_apply, h]

theorem bind_apply_error {m : Run α} {k : α → Run β} {s t : Store} {e : Stop}
    (h : m s = (.error e, t)) : (m >>= k) s = (.error e, t) := by
  rw [bind_apply, h]

theorem define_apply (env : FrameId) (symbol : Symbol) (v : Value) (s : Store) :
    Run.define env symbol v s =
      if s.isConstant env symbol then (.error (.fault (.constantViolation symbol.name)), s)
      else (.ok (), s.bindAt env symbol v) := by
  rw [Run.define, bind_apply, read_apply]
  dsimp only
  unfold Store.definePlace
  split <;> rfl

/-- A sequence that succeeds has succeeded in its first part. -/
theorem bind_eq_ok {m : Run α} {k : α → Run β} {s u : Store} {b : β}
    (h : (m >>= k) s = (.ok b, u)) : ∃ a t, m s = (.ok a, t) ∧ k a t = (.ok b, u) := by
  rw [bind_apply] at h
  rcases hm : m s with ⟨e | a, t⟩ <;> rw [hm] at h
  · cases h
  · exact ⟨a, t, rfl, h⟩

/-- A list of runs that succeed has as many results. -/
theorem length_of_mapM {f : α → Run β} {xs : List α} {ys : List β} {s t : Store}
    (h : xs.mapM f s = (.ok ys, t)) : ys.length = xs.length := by
  induction xs generalizing s ys with
  | nil =>
    cases h
    rfl
  | cons x xs ih =>
    rw [List.mapM_cons] at h
    obtain ⟨y, u, -, h⟩ := bind_eq_ok h
    obtain ⟨ys, t', hothers, h⟩ := bind_eq_ok h
    cases h
    exact congrArg Nat.succ (ih hothers)

/-- The call of a primitive that is given as many arguments as it takes. -/
theorem apply_native {n : Native} {args : List Value}
    (h : n.arity.check n.name args.length = .ok ()) (self : Recur) (rounds : Nat) (env : FrameId) :
    Run.apply self rounds (.native n) args env =
      Run.primitive self rounds n.name n.body args env := by
  simp only [Run.apply, h]
  rfl

theorem apply_refused {n : Native} {args : List Value} {f : Fault}
    (h : n.arity.check n.name args.length = .error f) (self : Recur) (rounds : Nat)
    (env : FrameId) (s : Store) :
    Run.apply self rounds (.native n) args env s = (.error (.fault f), s) := by
  have hfault : (Run.ofExcept (n.arity.check n.name args.length)) s = (.error (.fault f), s) := by
    rw [h]
    rfl
  exact Run.bind_apply_error hfault

end Run

namespace Reading

@[simp] theorem token_apply (source : Source) :
    Reading.token source = pure (Token.next source) := rfl

theorem token_of_next {source rest : Source} {r : Except Fault Token}
    (h : Token.next source = (r, rest)) (s : Store) :
    Reading.token source s = (.ok (r, rest), s) := by
  rw [token_apply, h]
  rfl

theorem ofRun_apply (m : Run α) (source : Source) (s : Store) :
    Reading.ofRun m source s = match m s with
      | (.ok a, t) => (.ok (.ok a, source), t)
      | (.error (.fault f), t) => (.ok (.error f, source), t)
      | (.error .unfinished, t) => (.error .unfinished, t) := by
  show (Run.observe m >>= fun x => pure (x, source)) s = _
  rw [Run.bind_apply, Run.observe_apply]
  rcases m s with ⟨(f | _) | a, t⟩ <;> rfl

theorem bind_apply (m : Reading α) (k : α → Reading β) (source : Source) :
    (m >>= k) source = (m source >>= fun
      | (.ok a, rest) => k a rest
      | (.error f, rest) => pure (.error f, rest)) := by
  show (m source >>= fun p => ExceptT.bindCont k p.1 p.2) = _
  congr
  funext p
  rcases p with ⟨f | a, rest⟩ <;> rfl

theorem bind_apply_ok {m : Reading α} {k : α → Reading β} {source rest : Source} {s t : Store}
    {a : α} (h : m source s = (.ok (.ok a, rest), t)) : (m >>= k) source s = k a rest t := by
  rw [bind_apply, Run.bind_apply_ok h]

theorem bind_apply_fault {m : Reading α} {k : α → Reading β} {source rest : Source} {s t : Store}
    {f : Fault} (h : m source s = (.ok (.error f, rest), t)) :
    (m >>= k) source s = (.ok (.error f, rest), t) := by
  rw [bind_apply, Run.bind_apply_ok h]
  rfl

theorem bind_apply_stop {m : Reading α} {k : α → Reading β} {source : Source} {s t : Store}
    {e : Stop} (h : m source s = (.error e, t)) : (m >>= k) source s = (.error e, t) := by
  rw [bind_apply, Run.bind_apply_error h]

/-- Readings that start alike and go on alike are alike. -/
theorem bind_congr {m m' : Reading α} {k k' : α → Reading β} {source : Source} {s : Store}
    (hm : m source s = m' source s)
    (hk : ∀ a rest t, m' source s = (.ok (.ok a, rest), t) → k a rest t = k' a rest t) :
    (m >>= k) source s = (m' >>= k') source s := by
  rcases hx : m' source s with ⟨e | ⟨f | a, rest⟩, t⟩ <;> rw [hx] at hm
  · rw [bind_apply_stop hm, bind_apply_stop hx]
  · rw [bind_apply_fault hm, bind_apply_fault hx]
  · rw [bind_apply_ok hm, bind_apply_ok hx]
    exact hk a rest t hx

end Reading

end PocketLisp
