/-
PocketLisp/Proofs/Operands.lean

The classes of operands, and which arguments operators are content with.

Numbers, texts and lists are three classes (`OperandClass`); `+` supports all
of them, comparisons support the first two and the other calculations numbers
only.  Two operands have to be of one class that the operator supports, else
they are refused, and a calculation stays in that class
(`Calculation.apply_of_takesAs`, `Calculation.apply_of_not_takesAs`).  So all
arguments that are folded over are of the same class.

A chain of comparisons ends behind the first two neighbours that do not
compare, so arguments further on are not looked at (`Comparison.seen`).  The
other exception is a single argument, which is not combined with anything:
`+`, `-` and `*` return it, whatever it is, but that `-` negates a number.

Main result: `operands_of_one_class`.
-/
import Mathlib.Data.List.Chain
import PocketLisp.Proofs.Heap

namespace PocketLisp

/-! ### Classes of operands -/

/-- A class of values that operators combine. -/
inductive OperandClass where
  | numbers | texts | lists
  deriving DecidableEq, Repr

/-- The class of a value, if there are operators for it; the empty list is a list. -/
def Value.operandClass? : Value → Option OperandClass
  | .number _ => some .numbers
  | .text .. => some .texts
  | .nil | .cons .. => some .lists
  | .t | .symbol _ | .function _ => none

variable {C : OperandClass} {a b : Value} {args rest : List Value}

namespace Operator

/-- The classes that an operator supports. -/
def supports : Operator → OperandClass → Bool
  | .calculate .add, _ => true
  | .calculate _, C => C == .numbers
  | .compare _, C => C != .lists

/-- All arguments are of one class, which the operator supports. -/
def TakesAs (op : Operator) (C : OperandClass) (args : List Value) : Prop :=
  op.supports C = true ∧ ∀ v ∈ args, v.operandClass? = some C

theorem takesAs_cons {op : Operator} :
    op.TakesAs C (a :: args) ↔ a.operandClass? = some C ∧ op.TakesAs C args := by
  rw [TakesAs, TakesAs, List.forall_mem_cons, and_left_comm]

theorem takesAs_pair {op : Operator} : op.TakesAs C [a, b] ↔
    op.supports C = true ∧ a.operandClass? = some C ∧ b.operandClass? = some C := by
  simp [TakesAs]

end Operator

namespace Value

theorem exists_number {v : Value} (h : v.operandClass? = some .numbers) : ∃ x, v = .number x := by
  cases v with
  | number x => exact ⟨x, rfl⟩
  | _ => cases h

theorem exists_text {v : Value} (h : v.operandClass? = some .texts) :
    ∃ id content, v = .text id content := by
  cases v with
  | text id content => exact ⟨id, content, rfl⟩
  | _ => cases h

theorem isList_iff_operandClass? {v : Value} :
    v.isList = true ↔ v.operandClass? = some .lists := by
  cases v <;> simp [isList, operandClass?]

theorem isList_chain {tail : Value} (h : tail.isList = true) (vs : List Value) (next : ObjectId) :
    (chain next vs tail).1.isList = true := by
  induction vs generalizing next tail with
  | nil => exact h
  | cons v vs ih => exact ih rfl _

end Value

namespace Fresh

variable {α β : Type} {body : Fresh α} {k : α → Fresh β} {next n : ObjectId}

theorem bind_of_ok {x : α} (h : body next = (.ok x, n)) : (body >>= k) next = k x n := by
  show ExceptT.bindCont k (body next).1 (body next).2 = _
  rw [h]
  rfl

theorem bind_of_error {f : Fault} (h : body next = (.error f, n)) :
    (body >>= k) next = (.error f, n) := by
  show ExceptT.bindCont k (body next).1 (body next).2 = _
  rw [h]
  rfl

end Fresh

/-! ### Calculations -/

namespace Calculation

/-- The calculations that divide. -/
def Divides (c : Calculation) : Prop := c = .div ∨ c = .mod

theorem onNumbers_cases (c : Calculation) (x y : Float) :
    (∃ z, c.onNumbers x y = .ok z) ∨ c.onNumbers x y = .error .divisionByZero ∧ c.Divides := by
  cases c with
  | add | sub | mul => exact .inl ⟨_, rfl⟩
  | div | mod =>
    by_cases hy : (y == 0.0) = true
    · exact .inr ⟨if_pos hy, by simp [Divides]⟩
    · exact .inl ⟨_, if_neg hy⟩

/-- Lists are appended. -/
theorem apply_lists (ha : a.isList = true) (hb : b.isList = true) :
    Calculation.add.apply a b = Fresh.listOnto a.items b := by
  unfold apply
  split
  · cases ha
  · cases ha
  · rw [ha, hb]
    rfl
  · next hcalc _ => exact (hcalc rfl).elim

/-- Two operands of one class that is supported make a value of that class, unless it is a division
by zero. -/
theorem apply_of_takesAs {c : Calculation} (h : (Operator.calculate c).TakesAs C [a, b])
    (next : ObjectId) :
    (∃ v n, v.operandClass? = some C ∧ c.apply a b next = (.ok v, n)) ∨
      c.Divides ∧ ∃ n, c.apply a b next = (.error .divisionByZero, n) := by
  obtain ⟨hsupports, ha, hb⟩ := Operator.takesAs_pair.mp h
  -- only numbers can fail, and only for a divisor of zero
  cases C with
  | numbers =>
    obtain ⟨x, rfl⟩ := Value.exists_number ha
    obtain ⟨y, rfl⟩ := Value.exists_number hb
    rcases onNumbers_cases c x y with ⟨z, hz⟩ | ⟨hz, hc⟩
    · refine .inl ⟨.number z, next, rfl, ?_⟩
      rw [apply, hz]
      rfl
    · refine .inr ⟨hc, next, ?_⟩
      rw [apply, hz]
      rfl
  | texts =>
    obtain ⟨i, x, rfl⟩ := Value.exists_text ha
    obtain ⟨j, y, rfl⟩ := Value.exists_text hb
    cases c with
    | add => exact .inl ⟨_, _, rfl, rfl⟩
    | _ => cases hsupports
  | lists =>
    cases c with
    | add =>
      have hb' := Value.isList_iff_operandClass?.mpr hb
      rw [apply_lists (Value.isList_iff_operandClass?.mpr ha) hb']
      have hv := Value.isList_chain hb' a.items.reverse next
      exact .inl ⟨_, _, Value.isList_iff_operandClass?.mp hv, rfl⟩
    | _ => cases hsupports

/-- All other operands are refused. -/
theorem apply_of_not_takesAs {c : Calculation}
    (h : ∀ C, ¬ (Operator.calculate c).TakesAs C [a, b]) (next : ObjectId) :
    c.apply a b next = (.error (.refused c.name [a, b]), next) := by
  have hclass (C : OperandClass) (hC : (Operator.calculate c).supports C = true)
      (ha : a.operandClass? = some C) (hb : b.operandClass? = some C) : False :=
    h C (Operator.takesAs_pair.mpr ⟨hC, ha, hb⟩)
  -- the code takes two operands of one class, and refuses the pair otherwise
  unfold apply
  split
  · exact (hclass .numbers (by cases c <;> rfl) rfl rfl).elim
  · exact (hclass .texts rfl rfl rfl).elim
  · split
    · next hlists =>
      obtain ⟨ha, hb⟩ := Bool.and_eq_true_iff.mp hlists
      exact (hclass .lists rfl (Value.isList_iff_operandClass?.mp ha)
        (Value.isList_iff_operandClass?.mp hb)).elim
    · rfl
  · rfl

/-- A calculation that is folded over arguments of one class makes a value of that class, unless
there is a division by zero. -/
theorem foldlM_of_takesAs {c : Calculation} (h : (Operator.calculate c).TakesAs C (a :: rest))
    (next : ObjectId) :
    (∃ v n, v.operandClass? = some C ∧ rest.foldlM c.apply a next = (.ok v, n)) ∨
      c.Divides ∧ ∃ n, rest.foldlM c.apply a next = (.error .divisionByZero, n) := by
  induction rest generalizing a next with
  | nil => exact .inl ⟨a, next, (Operator.takesAs_cons.mp h).1, rfl⟩
  | cons b rest ih =>
    obtain ⟨ha, htail⟩ := Operator.takesAs_cons.mp h
    obtain ⟨hb, hrest⟩ := Operator.takesAs_cons.mp htail
    rw [List.foldlM_cons]
    -- a result has the class of the operands, so the next step is such a pair again
    rcases apply_of_takesAs (Operator.takesAs_pair.mpr ⟨h.1, ha, hb⟩) next with
      ⟨v, n, hv, happly⟩ | ⟨hc, n, happly⟩
    · rw [Fresh.bind_of_ok happly]
      exact ih (Operator.takesAs_cons.mpr ⟨hv, hrest⟩) n
    · exact .inr ⟨hc, n, Fresh.bind_of_error happly⟩

/-- It fails if the arguments are of another class than the first value, or of none. -/
theorem foldlM_of_not_takesAs {c : Calculation} (ha : (Operator.calculate c).TakesAs C [a])
    (h : ¬ (Operator.calculate c).TakesAs C (a :: rest)) (next : ObjectId) :
    ∃ f n, rest.foldlM c.apply a next = (.error f, n) := by
  induction rest generalizing a next with
  | nil => exact absurd ha h
  | cons b rest ih =>
    obtain ⟨hclass, hnil⟩ := Operator.takesAs_cons.mp ha
    rw [List.foldlM_cons]
    -- the fold stops at the first operand of another class, or before it at a zero
    by_cases hb : b.operandClass? = some C
    · rcases apply_of_takesAs (Operator.takesAs_pair.mpr ⟨ha.1, hclass, hb⟩) next with
        ⟨v, n, hv, happly⟩ | ⟨-, n, happly⟩
      · rw [Fresh.bind_of_ok happly]
        refine ih (Operator.takesAs_cons.mpr ⟨hv, hnil⟩) (fun hrest => h ?_) n
        have hrest := (Operator.takesAs_cons.mp hrest).2
        exact Operator.takesAs_cons.mpr ⟨hclass, Operator.takesAs_cons.mpr ⟨hb, hrest⟩⟩
      · exact ⟨_, n, Fresh.bind_of_error happly⟩
    · have hnot (D : OperandClass) : ¬ (Operator.calculate c).TakesAs D [a, b] := fun hD => by
        obtain ⟨-, haD, hbD⟩ := Operator.takesAs_pair.mp hD
        rw [hclass] at haD
        cases haD
        exact hb hbD
      exact ⟨_, next, Fresh.bind_of_error (apply_of_not_takesAs hnot next)⟩

end Calculation

/-! ### Comparisons -/

namespace Comparison

/-- Whether a comparison holds of two values: both have to be numbers, or both texts. -/
def relates (c : Comparison) : Value → Value → Bool
  | .number a, .number b => (Number.compare? a b).any c.holds
  | .text _ a, .text _ b => c.holds (compareTexts a b)
  | _, _ => false

/-- The arguments that a chain of comparisons looks at: those up to the first two neighbours of
which the comparison does not hold. -/
def seen (c : Comparison) : List Value → List Value
  | a :: b :: rest => if c.relates a b then a :: seen c (b :: rest) else [a, b]
  | args => args

/-- Two operands of one class that is supported are compared. -/
theorem apply_of_takesAs {c : Comparison} (h : (Operator.compare c).TakesAs C [a, b]) :
    c.apply a b = .ok (.ofBool (c.relates a b)) := by
  obtain ⟨hsupports, ha, hb⟩ := Operator.takesAs_pair.mp h
  cases C with
  | numbers =>
    obtain ⟨x, rfl⟩ := Value.exists_number ha
    obtain ⟨y, rfl⟩ := Value.exists_number hb
    rw [apply, relates]
    rcases Number.compare? x y with - | o <;> rfl
  | texts =>
    obtain ⟨i, x, rfl⟩ := Value.exists_text ha
    obtain ⟨j, y, rfl⟩ := Value.exists_text hb
    rfl
  | lists => cases hsupports

/-- All other operands are refused. -/
theorem apply_of_not_takesAs {c : Comparison} (h : ∀ C, ¬ (Operator.compare c).TakesAs C [a, b]) :
    c.apply a b = .error (.refused c.name [a, b]) := by
  unfold apply
  split
  · exact absurd (Operator.takesAs_pair.mpr ⟨rfl, rfl, rfl⟩) (h .numbers)
  · exact absurd (Operator.takesAs_pair.mpr ⟨rfl, rfl, rfl⟩) (h .texts)
  · rfl

/-- Where a comparison holds, the operands are of one class. -/
theorem exists_class_of_relates {c : Comparison} (h : c.relates a b = true) :
    ∃ C, (Operator.compare c).TakesAs C [a, b] := by
  unfold relates at h
  split at h
  · exact ⟨.numbers, Operator.takesAs_pair.mpr ⟨rfl, rfl, rfl⟩⟩
  · exact ⟨.texts, Operator.takesAs_pair.mpr ⟨rfl, rfl, rfl⟩⟩
  · cases h

theorem mem_seen (c : Comparison) (b : Value) (rest : List Value) : b ∈ c.seen (b :: rest) := by
  cases rest with
  | nil => exact List.mem_cons_self
  | cons w rest =>
    rw [seen]
    split <;> exact List.mem_cons_self

section Chain

variable {c : Comparison}

theorem compareChain_of_relates (h : c.relates a b = true) (rest : List Value) :
    Operator.compareChain c (a :: b :: rest) = Operator.compareChain c (b :: rest) := by
  obtain ⟨C, hC⟩ := exists_class_of_relates h
  rw [Operator.compareChain, apply_of_takesAs hC, h]
  rfl

theorem compareChain_of_not_relates (hC : (Operator.compare c).TakesAs C [a, b])
    (h : c.relates a b = false) (rest : List Value) :
    Operator.compareChain c (a :: b :: rest) = .ok .nil := by
  rw [Operator.compareChain, apply_of_takesAs hC, h]
  rfl

/-- A chain of comparisons says whether every two neighbours compare, if the arguments that it
looks at are of one class. -/
theorem compareChain_of_takesAs (h : (Operator.compare c).TakesAs C (c.seen args)) :
    (args.IsChain (fun a b => c.relates a b = true) ∧ Operator.compareChain c args = .ok .t) ∨
      (¬ args.IsChain (fun a b => c.relates a b = true) ∧
        Operator.compareChain c args = .ok .nil) := by
  -- a chain looks at the operands up to the first pair that fails
  fun_induction seen c args with
  | case1 a b rest hab ih =>
    rw [compareChain_of_relates hab, List.isChain_cons_cons]
    have htail := ih (Operator.takesAs_cons.mp h).2
    simpa only [hab, true_and] using htail
  | case2 a b rest hab =>
    have hfalse := Bool.eq_false_iff.mpr hab
    refine .inr ⟨fun hchain => hab (List.isChain_cons_cons.mp hchain).1, ?_⟩
    exact compareChain_of_not_relates h hfalse rest
  | case3 args hargs =>
    rcases args with - | ⟨a, - | ⟨b, rest⟩⟩
    · exact .inl ⟨.nil, rfl⟩
    · exact .inl ⟨.singleton a, rfl⟩
    · exact (hargs a b rest rfl).elim

/-- It fails if they are not. -/
theorem compareChain_of_not_takesAs (h : ∀ C, ¬ (Operator.compare c).TakesAs C (c.seen args))
    (hone : args.length = 1 → ∃ C, (Operator.compare c).TakesAs C args) :
    ∃ f, Operator.compareChain c args = .error f := by
  fun_induction seen c args with
  | case1 a b rest hab ih =>
    obtain ⟨C, hpair⟩ := exists_class_of_relates hab
    obtain ⟨hC, ha, hb⟩ := Operator.takesAs_pair.mp hpair
    rw [compareChain_of_relates hab]
    refine ih (fun D hD => h D (Operator.takesAs_cons.mpr ⟨?_, hD⟩)) fun hlen => ⟨C, hC, ?_⟩
    · -- the second operand is looked at again, so its class is that of the others
      have hbD := hD.2 b (mem_seen c b rest)
      rw [hb] at hbD
      exact hbD ▸ ha
    · obtain rfl : rest = [] := List.length_eq_zero_iff.mp (Nat.succ.inj hlen)
      exact List.forall_mem_singleton.mpr hb
  | case2 a b rest hab =>
    refine ⟨.refused c.name [a, b], ?_⟩
    rw [Operator.compareChain, apply_of_not_takesAs h]
    rfl
  | case3 args hargs =>
    rcases args with - | ⟨a, - | ⟨b, rest⟩⟩
    · exact absurd ⟨rfl, List.forall_mem_nil _⟩ (h .numbers)
    · obtain ⟨C, hC⟩ := hone rfl
      exact absurd hC (h C)
    · exact (hargs a b rest rfl).elim

end Chain

end Comparison

/-! ### All operators -/

namespace Operator

/-- The arguments that an operator looks at, if nothing fails. -/
def seen : Operator → List Value → List Value
  | .calculate _, args => args
  | .compare c, args => c.seen args

/-- What an operator makes of arguments of a class: a calculation a value of that class, and a
comparison the truth value of the chain. -/
def Makes (op : Operator) (C : OperandClass) (args : List Value) (v : Value) : Prop :=
  match op with
  | .calculate _ => v.operandClass? = some C
  | .compare c => args.IsChain (fun a b => c.relates a b = true) ∧ v = .t ∨
      ¬ args.IsChain (fun a b => c.relates a b = true) ∧ v = .nil

/-- Several arguments are folded over from the left. -/
theorem fold_calculate (c : Calculation) (a b : Value) (rest : List Value) :
    (calculate c).fold (a :: b :: rest) = (b :: rest).foldlM c.apply a := by
  cases c <;> cases a <;> rfl

/-- A single argument of a class that is supported makes a value of that class. -/
theorem fold_single {c : Calculation} (h : (calculate c).TakesAs C [a]) (next : ObjectId) :
    ∃ v, v.operandClass? = some C ∧ (calculate c).fold [a] next = (.ok v, next) := by
  have ha := (takesAs_cons.mp h).1
  cases c with
  | sub =>
    obtain rfl : C = .numbers := eq_of_beq h.1
    obtain ⟨x, rfl⟩ := Value.exists_number ha
    exact ⟨_, rfl, rfl⟩
  | _ => exact ⟨a, ha, rfl⟩

theorem fold_of_takesAs {op : Operator} (hargs : args ≠ []) (h : op.TakesAs C (op.seen args))
    (next : ObjectId) :
    (∃ v n, op.Makes C args v ∧ op.fold args next = (.ok v, n)) ∨
      (op = .calculate .div ∨ op = .calculate .mod) ∧
        ∃ n, op.fold args next = (.error .divisionByZero, n) := by
  cases op with
  | calculate c =>
    -- one operand is negated or kept, several are folded
    match args, hargs with
    | [a], _ =>
      obtain ⟨v, hv, hfold⟩ := fold_single h next
      exact .inl ⟨v, next, hv, hfold⟩
    | a :: b :: rest, _ =>
      rw [fold_calculate]
      rcases Calculation.foldlM_of_takesAs h next with hok | ⟨hc, hzero⟩
      · exact .inl hok
      · exact .inr ⟨hc.imp (congrArg calculate) (congrArg calculate), hzero⟩
  | compare c =>
    left
    rcases Comparison.compareChain_of_takesAs h with ⟨hchain, hfold⟩ | ⟨hchain, hfold⟩
    · refine ⟨.t, next, .inl ⟨hchain, rfl⟩, ?_⟩
      rw [fold, hfold]
      rfl
    · refine ⟨.nil, next, .inr ⟨hchain, rfl⟩, ?_⟩
      rw [fold, hfold]
      rfl

theorem fold_of_not_takesAs {op : Operator} (hargs : args ≠ [])
    (hone : args.length = 1 → ∃ C, op.TakesAs C args) (h : ∀ C, ¬ op.TakesAs C (op.seen args))
    (next : ObjectId) : ∃ f n, op.fold args next = (.error f, n) := by
  cases op with
  | calculate c =>
    match args, hargs with
    | [a], _ =>
      obtain ⟨C, hC⟩ := hone rfl
      exact absurd hC (h C)
    | a :: b :: rest, _ =>
      rw [fold_calculate]
      -- refused at the first pair, or at a later operand
      by_cases hpair : ∃ C, (calculate c).TakesAs C [a, b]
      · obtain ⟨C, hC⟩ := hpair
        obtain ⟨hsupports, ha, -⟩ := takesAs_pair.mp hC
        have hfirst : (calculate c).TakesAs C [a] := ⟨hsupports, List.forall_mem_singleton.mpr ha⟩
        exact Calculation.foldlM_of_not_takesAs hfirst (h C) next
      · have happly := Calculation.apply_of_not_takesAs (not_exists.mp hpair) next
        exact ⟨_, next, Fresh.bind_of_error happly⟩
  | compare c =>
    obtain ⟨f, hf⟩ := Comparison.compareChain_of_not_takesAs h hone
    refine ⟨f, next, ?_⟩
    rw [fold, hf]
    rfl

end Operator

/-- Which operands an operator takes.

All arguments that it looks at are of one class that it supports, or it fails.  If they are, it
makes a value of that class, or a truth value if it compares, and it fails at most with a division
by zero.  Comparisons look at the arguments up to the first two neighbours of which they do not
hold, the other operators at all of them.  A single argument is not combined with any other; that
it is of such a class has to be known. -/
theorem operands_of_one_class (op : Operator) {args : List Value} (hargs : args ≠ [])
    (hone : args.length = 1 → ∃ C, op.TakesAs C args) (next : ObjectId) :
    (∀ v n, op.fold args next = (.ok v, n) →
      ∃ C, op.TakesAs C (op.seen args) ∧ op.Makes C args v) ∧
    ((∀ C, ¬ op.TakesAs C (op.seen args)) → ∃ f n, op.fold args next = (.error f, n)) ∧
    (∀ C, op.TakesAs C (op.seen args) → (∃ v n, op.fold args next = (.ok v, n)) ∨
      (op = .calculate .div ∨ op = .calculate .mod) ∧
        ∃ n, op.fold args next = (.error .divisionByZero, n)) := by
  refine ⟨fun v n hv => ?_, fun h => Operator.fold_of_not_takesAs hargs hone h next, fun C hC => ?_⟩
  · -- a result rules out both the refusal and the division by zero
    by_cases hclass : ∃ C, op.TakesAs C (op.seen args)
    · obtain ⟨C, hC⟩ := hclass
      rcases Operator.fold_of_takesAs hargs hC next with ⟨w, m, hmakes, hw⟩ | ⟨-, m, hzero⟩
      · rw [hv] at hw
        cases hw
        exact ⟨C, hC, hmakes⟩
      · rw [hv] at hzero
        cases hzero
    · obtain ⟨f, m, hf⟩ := Operator.fold_of_not_takesAs hargs hone (not_exists.mp hclass) next
      rw [hv] at hf
      cases hf
  · exact (Operator.fold_of_takesAs hargs hC next).imp_left fun ⟨v, n, _, hv⟩ => ⟨v, n, hv⟩

/-- Lists are appended to lists, and not to texts. -/
theorem operands_of_one_class_of_lists :
    let add := Operator.calculate .add
    let lists : List Value := [.cons 0 .t .nil, .nil, .cons 1 .t .nil]
    let mixed : List Value := [.cons 0 .t .nil, .text 1 "x"]
    (∃ v n, add.fold lists 2 = (.ok v, n) ∧
      ∃ C, add.TakesAs C lists ∧ v.operandClass? = some C) ∧
    ∃ f n, add.fold mixed 2 = (.error f, n) := by
  intro add lists mixed
  have hmixed (C : OperandClass) : ¬ add.TakesAs C mixed := fun h => by
    obtain ⟨-, hlist, htext⟩ := Operator.takesAs_pair.mp h
    cases hlist
    cases htext
  have hlists := operands_of_one_class add (show lists ≠ [] from nofun) nofun 2
  have hrefused := operands_of_one_class add (show mixed ≠ [] from nofun) nofun 2
  exact ⟨⟨_, _, rfl, hlists.1 _ _ rfl⟩, hrefused.2.1 hmixed⟩

/-- A comparison that does not hold of the first two arguments does not look at a third that it
could not compare, and a single argument is returned by `-` even if it is no number. -/
theorem operands_not_looked_at :
    let x : Value := .text 0 "x"
    let falling : List Value := [.number (Float.ofNat 2), .number (Float.ofNat 1), x]
    let lt := Operator.compare .lt
    let sub := Operator.calculate .sub
    (lt.arity.check lt.name 3 = .ok () ∧ (∀ C, ¬ lt.TakesAs C falling) ∧
      lt.fold falling 1 = (.ok .nil, 1)) ∧
    sub.arity.check sub.name 1 = .ok () ∧ (∀ C, ¬ sub.TakesAs C [x]) ∧
      sub.fold [x] 1 = (.ok x, 1) := by
  intro x falling lt sub
  refine ⟨⟨by decide, fun C ⟨_, h⟩ => ?_, ?_⟩, by decide, fun C ⟨hsupports, h⟩ => ?_, rfl⟩
  · have htwo := h (.number (Float.ofNat 2)) List.mem_cons_self
    have hx := h x (by simp [falling])
    cases htwo
    cases hx
  · have hchain : Operator.compareChain .lt falling = .ok .nil := by decide +kernel
    show (Operator.fold (.compare .lt) falling) 1 = _
    rw [Operator.fold, hchain]
    rfl
  · have hx := h x List.mem_cons_self
    cases hx
    cases hsupports

end PocketLisp
