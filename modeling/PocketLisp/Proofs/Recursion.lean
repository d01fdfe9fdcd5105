/-
PocketLisp/Proofs/Recursion.lean

How many calls are active at the same time.

The nesting limit counts the lists that are being read, expanded and
evaluated.  A call between two of them is not counted: one that reads the form
behind a quote mark, that calls a function, or that delivers a text.  A streak
is a sequence of calls of this kind, each made by the one before.

`streakRun` is the interpreter with a bound for streaks.  Where no streak is
longer than `streak`, and `d` nested steps are possible, at most
`(d + 1) * (streak + 1)` calls are active (`calls_within_streaks`): each nested
step starts a new streak, and the last call of all reads or evaluates an atom
or is refused.

The limit alone bounds no number of calls, as nothing bounds streaks.  A run of
quote marks is read however long it is (`read_quotes`), and functions that call
functions go as deep as the list that they are given (`apply_applications`).

Main results: `calls_within_streaks`, `calls_of_create`, `limit_bounds_no_calls`.
-/
import Mathlib.Algebra.Order.BigOperators.Group.Finset
import PocketLisp.Proofs.Creation
import PocketLisp.Proofs.Grammar
import PocketLisp.Proofs.Nesting

namespace PocketLisp

variable {α : Type}

/-! ### The room of a store -/

/-- How many more nested steps are possible on a level. -/
def Level.room (l : Level) : Nat := l.limit - l.depth

/-- How many more nested steps are possible, one inside the other, in whatever realms. -/
def Store.totalRoom (s : Store) : Nat :=
  ∑ realm ∈ Finset.range s.realms.size, (s.level realm).room

/-- Only some realms have room for nested steps, and no more than for `d` together. -/
structure Spare (realms d : Nat) (l : Nat → Level) : Prop where
  realm_lt : ∀ {realm}, (l realm).HasRoom → realm < realms
  total : ∑ realm ∈ Finset.range realms, (l realm).room ≤ d

theorem Level.hasRoom_iff {l : Level} : l.HasRoom ↔ 0 < l.room := by
  simp only [Level.HasRoom, Level.room]
  omega

/-- A nested step takes room from what there is. -/
theorem Spare.raise {realms d realm : Nat} {l : Nat → Level} (h : Spare realms d l)
    (hroom : (l realm).HasRoom) : ∃ d', d = d' + 1 ∧ Spare realms d' (raise realm l) := by
  have hlower : ∀ i, (PocketLisp.raise realm l i).room ≤ (l i).room := by
    intro i
    simp only [PocketLisp.raise, Level.room]
    split
    · exact Nat.sub_le_sub_left (Nat.le_succ _) _
    · exact Nat.le_refl _
  have hless : (PocketLisp.raise realm l realm).room < (l realm).room := by
    have hpos := Level.hasRoom_iff.mp hroom
    simp only [PocketLisp.raise, Level.room, if_true] at hpos ⊢
    omega
  -- one realm has one step less, the others as many as before
  have htotal : ∑ i ∈ Finset.range realms, (PocketLisp.raise realm l i).room <
      ∑ i ∈ Finset.range realms, (l i).room :=
    Finset.sum_lt_sum (fun i _ => hlower i)
      ⟨realm, Finset.mem_range.mpr (h.realm_lt hroom), hless⟩
  have hd := h.total
  refine ⟨d - 1, by omega, fun {i} hi => h.realm_lt ?_, by omega⟩
  exact Level.hasRoom_iff.mpr (Nat.lt_of_lt_of_le (Level.hasRoom_iff.mp hi) (hlower i))

namespace Store

variable {s : Store}

theorem spare_of_totalRoom {d : Nat} (h : s.totalRoom ≤ d) : Spare s.realms.size d s.level where
  realm_lt := by
    intro realm hroom
    by_contra hlt
    rw [level_of_size_le (Nat.le_of_not_lt hlt)] at hroom
    exact Nat.not_succ_le_zero 0 hroom
  total := h

/-- A new realm adds the room that its limit gives it. -/
theorem totalRoom_addRealm (s : Store) (caseRule : CaseRule) (maxDepth : Nat) :
    (s.addRealm caseRule maxDepth).2.totalRoom = s.totalRoom + maxDepth := by
  have hsize : (s.addRealm caseRule maxDepth).2.realms.size = s.realms.size + 1 :=
    Array.size_push ..
  have hnew : ((s.addRealm caseRule maxDepth).2.level s.realms.size).room = maxDepth := by
    simp [level, addRealm, Level.room]
  have hold : ∀ realm ∈ Finset.range s.realms.size,
      ((s.addRealm caseRule maxDepth).2.level realm).room = (s.level realm).room := by
    intro realm hrealm
    have hlt : realm < s.realms.size := Finset.mem_range.mp hrealm
    simp [level, addRealm, Array.getElem?_push, Nat.ne_of_lt hlt]
  rw [totalRoom, hsize, Finset.sum_range_succ, hnew, Finset.sum_congr rfl hold, totalRoom]

/-- A new engine adds the room that its limit gives it. -/
theorem totalRoom_of_create {a : Allowance} {caseRule : CaseRule} {maxDepth : Nat} {e : Engine}
    {t : Store} (h : Engine.create a ⟨caseRule, none, maxDepth⟩ s = (.ok e, t)) :
    t.totalRoom = s.totalRoom + maxDepth := by
  obtain ⟨e', t', hcreate, -, hshape, hlevel⟩ := Engine.create_eq_ok a caseRule maxDepth s
  rw [hcreate] at h
  obtain ⟨-, rfl⟩ := Prod.mk.inj h
  rw [totalRoom, hshape.realms, hlevel]
  exact totalRoom_addRealm s caseRule maxDepth

end Store

/-! ### Streaks -/

/-- Whether a call makes other calls without being counted as a nested step. -/
def Call.isUncounted : Call α → Bool
  | .apply .. | .emit .. | .parse .quote .. => true
  | _ => false

/-- Carries out a call with at most `calls` calls active at the same time, and does `spent` where
there would be more.  It ends unfinished where a streak would be longer than `streak`, or longer
than `left` if it has begun. -/
def streakRun (spent : Recur) (rounds streak : Nat) : (calls left : Nat) → Recur
  | 0, _, _, c => spent c
  | calls + 1, left, _, c =>
    if c.isUncounted then
      match left with
      | 0 => Run.unfinished
      | left + 1 => perform (streakRun spent rounds streak calls left) rounds c
    else c.nested (perform (streakRun spent rounds streak calls streak) rounds c)

section Equations

variable {c : Call α}

theorem streakRun_spent (spent : Recur) (rounds streak calls : Nat)
    (h : c.isUncounted = true) :
    streakRun spent rounds streak (calls + 1) 0 c = Run.unfinished := by
  simp only [streakRun, h, if_true]

theorem streakRun_uncounted (spent : Recur) (rounds streak calls left : Nat)
    (h : c.isUncounted = true) :
    streakRun spent rounds streak (calls + 1) (left + 1) c =
      perform (streakRun spent rounds streak calls left) rounds c := by
  simp only [streakRun, h, if_true]

theorem streakRun_counted (spent : Recur) (rounds streak calls left : Nat)
    (h : c.isUncounted = false) :
    streakRun spent rounds streak (calls + 1) left c =
      c.nested (perform (streakRun spent rounds streak calls streak) rounds c) := by
  simp only [streakRun, h, Bool.false_eq_true, if_false]

/-- Calls that are made without being counted are no nested steps. -/
theorem Call.nested_of_isUncounted (h : c.isUncounted = true) (body : Run α) :
    c.nested body = body := by
  cases c with
  | apply f args env | emit channel content => rfl
  | eval form env | expand form env => cases h
  | parse token mode global source =>
    cases token with
    | quote => rfl
    | _ => cases h

/-- A call that is neither counted nor uncounted is about an atom, and makes no calls. -/
theorem perform_of_atom (h : c.isUncounted = false) (hnests : c.nestsIn? = none)
    (self self' : Recur) (rounds : Nat) : perform self rounds c = perform self' rounds c := by
  -- an atom answers for itself, so what further calls would do is never asked
  cases c with
  | apply f args env | emit channel content => cases h
  | eval form env =>
    cases form with
    | cons id head tail => simp [Call.nestsIn?] at hnests
    | _ => simp only [perform, Run.form]
  | expand form env =>
    have hatom : form.isCons = false := by
      cases form with
      | cons id head tail => simp [Call.nestsIn?] at hnests
      | _ => rfl
    simp only [perform, Run.Expansion.wholly, hatom, Bool.false_eq_true, if_false]
  | parse token mode global source =>
    cases token with
    | leftParen => simp [Call.nestsIn?] at hnests
    | quote => cases h
    | _ => simp only [perform, Run.Parsing.form]

end Equations

variable {P : Pairing}

theorem Lockstep.atom_call {c : Call α} (h : c.isUncounted = false) (hnests : c.nestsIn? = none)
    (self self' : Recur) (rounds : Nat) :
    Lockstep P (P.Ends c) (perform self rounds c) (perform self' rounds c) := by
  let nothing : Recur := fun _ _ => Run.unfinished
  rw [perform_of_atom h hnests self nothing, perform_of_atom h hnests self' nothing]
  exact perform_lockstep (fun _ => Lockstep.throw _) (.inl rfl) c

/-- With calls enough for the room that there is, it makes no difference what is done where calls
are spent. -/
theorem streakRun_lockstep {spent spent' : Recur} {rounds streak calls left realms d : Nat}
    (hsame : P.high = P.low) (hspare : Spare realms d P.low)
    (hcalls : left + 1 + d * (streak + 1) ≤ calls) :
    RecurLockstep P (streakRun spent rounds streak calls left)
      (streakRun spent' rounds streak calls left) := by
  -- the calls pay for what is left of the streak, for one more call, and for the room
  induction calls generalizing P d left with
  | zero => omega
  | succ calls ih =>
    intro α c
    cases hc : c.isUncounted with
    | true =>
      cases left with
      | zero =>
        rw [streakRun_spent spent _ _ _ hc, streakRun_spent spent' _ _ _ hc]
        exact Lockstep.throw _
      | succ left =>
        rw [streakRun_uncounted spent _ _ _ _ hc, streakRun_uncounted spent' _ _ _ _ hc]
        exact perform_lockstep (ih hsame hspare (by omega)) (.inl rfl) c
    | false =>
      rw [streakRun_counted spent _ _ _ _ hc, streakRun_counted spent' _ _ _ _ hc]
      refine nested_lockstep (Pairing.admits_of_same hsame) c (fun hnests => ?_)
        fun {realm} hroom => ?_
      -- an atom makes no calls, so it needs none
      · exact Lockstep.atom_call hc hnests _ _ rounds
      -- a nested step takes room, and what that has paid for pays for the streak that it starts
      · obtain ⟨d', rfl, hspare'⟩ := hspare.raise hroom
        refine perform_lockstep (ih (Pairing.raised_same hsame realm) hspare' ?_) (.inl rfl) c
        have hpaid : (d' + 1) * (streak + 1) = d' * (streak + 1) + (streak + 1) :=
          Nat.succ_mul ..
        omega

/-- Unless it ends unfinished, the interpreter with a bound for streaks does what the interpreter
does that has as many calls, or more. -/
theorem streakRun_lockstep_run {rounds streak calls left n : Nat} (hcut : P.cut .unfinished)
    (hsame : P.high = P.low) (hcalls : calls ≤ n) :
    RecurLockstep P (streakRun (fun _ _ => Run.unfinished) rounds streak calls left)
      (run rounds n) := by
  induction calls generalizing P left n with
  | zero => exact fun c _ _ _ => .inl (Pairing.ends_unfinished hcut c)
  | succ calls ih =>
    intro α c
    obtain ⟨m, rfl⟩ := Nat.exists_eq_add_one.mpr (Nat.lt_of_lt_of_le (Nat.succ_pos _) hcalls)
    have hm : calls ≤ m := Nat.le_of_succ_le_succ hcalls
    have hrun : run rounds (m + 1) c = c.nested (perform (run rounds m) rounds c) := rfl
    -- an uncounted call uses up its streak, a counted one starts a new streak a step deeper
    cases hc : c.isUncounted with
    | true =>
      cases left with
      | zero =>
        rw [streakRun_spent _ _ _ _ hc]
        exact fun _ _ _ => .inl (Pairing.ends_unfinished hcut c)
      | succ left =>
        rw [streakRun_uncounted _ _ _ _ _ hc, hrun, Call.nested_of_isUncounted hc]
        exact perform_lockstep (ih hcut hsame hm) (.inl rfl) c
    | false =>
      rw [streakRun_counted _ _ _ _ _ hc, hrun]
      refine nested_lockstep (Pairing.admits_of_same hsame) c (fun _ => ?_) fun {realm} _ => ?_
      · exact perform_lockstep (ih hcut hsame hm) (.inl rfl) c
      · refine perform_lockstep (ih (P := P.raised realm) hcut ?_ hm) (.inl rfl) c
        exact Pairing.raised_same hsame realm

/-! ### Calls within streaks -/

/-- Interpreters that go in lockstep give the same answers. -/
theorem answer_eq {s : Store} {cut : Stop → Prop} {hcut : ∀ f, ¬ cut (.fault f)}
    {self self' : Recur} (h : RecurLockstep (Pairing.ofStore s cut hcut) self self')
    (x : Request α) :
    (Pairing.ofStore s cut hcut).Unfinished (x.answer self s).1 ∨
      x.answer self' s = x.answer self s :=
  (answer_unfinished h x hcut).eq_of_store

section Enough

variable {s : Store} {d : Nat}

/-- With calls enough for the room that there is, what is done where calls are spent makes no
difference to any answer. -/
theorem answer_streakRun (hd : s.totalRoom ≤ d) (x : Request α) (rounds streak : Nat)
    (spent spent' : Recur) :
    x.answer (streakRun spent' rounds streak ((d + 1) * (streak + 1)) streak) s =
      x.answer (streakRun spent rounds streak ((d + 1) * (streak + 1)) streak) s := by
  have henough : streak + 1 + d * (streak + 1) ≤ (d + 1) * (streak + 1) := by
    rw [Nat.succ_mul, Nat.add_comm]
  have hrun : RecurLockstep (Pairing.ofStore s (fun _ => False) fun _ => id)
      (streakRun spent rounds streak ((d + 1) * (streak + 1)) streak)
      (streakRun spent' rounds streak ((d + 1) * (streak + 1)) streak) :=
    streakRun_lockstep rfl (Store.spare_of_totalRoom hd) henough
  exact (answer_eq hrun x).resolve_left fun hcut => hcut.eq_error.2

/-- An answer that is given within streaks is given by the interpreter that has as many calls, or
more. -/
theorem answer_run_of_streakRun (hd : s.totalRoom ≤ d) {x : Request α} {rounds streak n : Nat}
    {spent : Recur}
    (h : (x.answer (streakRun spent rounds streak ((d + 1) * (streak + 1)) streak) s).1 ≠
      .error .unfinished) (hn : (d + 1) * (streak + 1) ≤ n) :
    x.answer (run rounds n) s =
      x.answer (streakRun spent rounds streak ((d + 1) * (streak + 1)) streak) s := by
  -- for the comparison with `run`, to end unfinished where calls are spent is as good as anything
  rw [answer_streakRun hd x rounds streak (fun _ _ => Run.unfinished) spent] at h ⊢
  have hrun : RecurLockstep (Pairing.unfinished s)
      (streakRun (fun _ _ => Run.unfinished) rounds streak ((d + 1) * (streak + 1)) streak)
      (run rounds n) :=
    streakRun_lockstep_run rfl rfl hn
  exact (answer_eq hrun x).resolve_left fun hcut => h hcut.eq_error.1

end Enough

/-- Where `d` nested steps are possible and no streak is longer than `streak`, no more calls than
`(d + 1) * (streak + 1)` are active at the same time: what is done where calls are spent makes no
difference to any answer, and more calls make none either. -/
theorem calls_within_streaks (x : Request α) (rounds streak : Nat) {s : Store} {d : Nat}
    (hd : s.totalRoom ≤ d) (spent : Recur) :
    let bound := (d + 1) * (streak + 1)
    let answer := x.answer (streakRun spent rounds streak bound streak) s
    (∀ spent' : Recur, x.answer (streakRun spent' rounds streak bound streak) s = answer) ∧
      (answer.1 ≠ .error .unfinished → ∀ n, bound ≤ n → x.answer (run rounds n) s = answer) := by
  intro bound answer
  exact ⟨answer_streakRun hd x rounds streak spent, fun hfinished n hn =>
    answer_run_of_streakRun hd hfinished hn⟩

/-- Where three nested steps are possible, and streaks are of one call, eight calls are enough to
read and to call a function. -/
theorem calls_within_streaks_of_lambda :
    let s := ((Store.empty .empty).addRealm .preserve 3).2
    let x := Request.evaluate ⟨0, 0⟩ "((lambda (x) (if x x t)) nil)"
    s.totalRoom ≤ 3 ∧
      (x.answer (streakRun (fun _ _ => Run.unfinished) 9 1 8 1) s).1 = .ok .t ∧
      ∀ n, 8 ≤ n → (x.answer (run 9 n) s).1 = .ok .t := by
  intro s x
  have hroom : s.totalRoom ≤ 3 := by decide
  have hanswer : (x.answer (streakRun (fun _ _ => Run.unfinished) 9 1 8 1) s).1 = .ok .t := by
    decide +kernel
  refine ⟨hroom, hanswer, fun n hn => ?_⟩
  have hrun := (calls_within_streaks x 9 1 hroom fun _ _ => Run.unfinished).2
    (by rw [hanswer]; nofun) n hn
  exact (congrArg Prod.fst hrun).trans hanswer

/-- The room of a new engine is its nesting limit, so `(maxDepth + 1) * (streak + 1)` calls are
enough for every request to the first engine of a program that is answered within streaks. -/
theorem calls_of_create {a : Allowance} {caseRule : CaseRule} {maxDepth : Nat} {files : FileTree}
    {e : Engine} {s : Store}
    (hcreate : Engine.create a ⟨caseRule, none, maxDepth⟩ (.empty files) = (.ok e, s))
    (x : Request α) (rounds streak : Nat) (spent : Recur) :
    let bound := (maxDepth + 1) * (streak + 1)
    let answer := x.answer (streakRun spent rounds streak bound streak) s
    answer.1 ≠ .error .unfinished → ∀ n, bound ≤ n → x.answer (run rounds n) s = answer := by
  intro bound answer hfinished n hn
  have hroom : s.totalRoom ≤ maxDepth := by
    have hempty : (Store.empty files).totalRoom = 0 := Finset.sum_range_zero _
    rw [Store.totalRoom_of_create hcreate, hempty, Nat.zero_add]
  exact answer_run_of_streakRun hroom hfinished hn

/-! ### Quote marks -/

/-- A run of quote marks in front of an atom. -/
def quotes (n : Nat) : Source := List.replicate n '\'' ++ ['x']

/-- What is written with a run of quote marks. -/
def Datum.quotes : Nat → Datum .form
  | 0 => .symbol "x"
  | n + 1 => .quote (Datum.quotes n)

theorem next_quotes_zero : Token.next (quotes 0) = (.ok (.symbol "x"), []) := by
  decide +kernel

theorem next_quotes_succ (n : Nat) : Token.next (quotes (n + 1)) = (.ok .quote, quotes n) := by
  have hcons : quotes (n + 1) = '\'' :: quotes n := rfl
  rw [hcons, Token.next, Source.skip_other (by decide) (by decide)]
  rfl

theorem reads_quotes (n : Nat) : Reads (quotes n) (Datum.quotes n) [] := by
  induction n with
  | zero => exact .symbol next_quotes_zero
  | succ n ih => exact .quote (next_quotes_succ n) ih

/-- One call is active for every quote mark, and none of them is a nested step. -/
theorem calls_quotes (n : Nat) : (Datum.quotes n).calls = n + 1 ∧ (Datum.quotes n).nesting = 0 := by
  induction n with
  | zero => exact ⟨rfl, rfl⟩
  | succ n ih => exact ⟨congrArg (· + 1) ih.1, ih.2⟩

theorem eq_quotes_of_reads {n : Nat} {d : Datum .form} {rest : Source}
    (h : Reads (quotes n) d rest) : d = Datum.quotes n := by
  induction n generalizing d rest with
  | zero =>
    cases h with
    | symbol hnext =>
      rw [next_quotes_zero] at hnext
      cases hnext
      rfl
    | number hnext | text hnext | quote hnext _ | list hnext _ =>
      rw [next_quotes_zero] at hnext
      cases hnext
  | succ n ih =>
    -- the mark rules out every other form
    cases h with
    | quote hnext hinner =>
      rw [next_quotes_succ] at hnext
      cases hnext
      rw [ih hinner, Datum.quotes]
    | number hnext | text hnext | symbol hnext | list hnext _ =>
      rw [next_quotes_succ] at hnext
      cases hnext

/-- Behind a quote mark data is read also in code. -/
theorem form_code_quotes (rounds calls n : Nat) (env : FrameId) (s : Store) :
    (run rounds calls).form .code env (quotes (n + 1)) s =
      (run rounds calls).form .data env (quotes (n + 1)) s := by
  rw [form_apply _ _ (next_quotes_succ n), form_apply _ _ (next_quotes_succ n)]
  cases calls with
  | zero => rfl
  | succ calls => rw [Run.run_parse (by simp), Run.run_parse (by simp)]; rfl

/-- A form behind `n` quote marks is read if and only if more than `n` calls may be active: in any
realm, and however deep that is. -/
theorem read_quotes (rounds calls n : Nat) (env : FrameId) (s : Store) :
    (∃ v t, (run rounds calls).form .data env (quotes n) s = (.ok (.ok v, []), t)) ↔ n < calls := by
  constructor
  · rintro ⟨v, t, h⟩
    obtain ⟨d, hd, hcalls, -⟩ := reads_of_form h
    rw [eq_quotes_of_reads hd, (calls_quotes n).1] at hcalls
    exact hcalls
  · intro hcalls
    have hroom : (Datum.quotes n).nesting ≤ s.room env := by
      rw [(calls_quotes n).2]
      exact Nat.zero_le _
    exact ⟨_, _, (reads_quotes n).dataRead ((calls_quotes n).1.trans_le hcalls) hroom⟩

/-! ### Functions that call functions -/

/-- The primitive that calls a function with the elements of a list. -/
def applyFunction : Function := .native ⟨0, "apply", .exactly 2, .apply⟩

/-- A list of this function and of a list of the same kind, `n` deep. -/
def applications : Nat → Value
  | 0 => .nil
  | n + 1 => .cons 0 (.function applyFunction) (.cons 0 (applications n) .nil)

theorem run_apply (rounds calls : Nat) (f : Function) (args : List Value) (env : FrameId) :
    run rounds (calls + 1) (.apply f args env) = Run.apply (run rounds calls) rounds f args env :=
  rfl

/-- The call of a function by this one is one call more, and no nested step. -/
theorem run_applyFunction {v : Value} {items : List Value} (h : v.listItems = .ok items)
    (rounds calls : Nat) (f : Function) (env : FrameId) :
    run rounds (calls + 1) (.apply applyFunction [.function f, v] env) =
      run rounds calls (.apply f items env) := by
  have hstep : ∀ self : Recur, Run.apply self rounds applyFunction [.function f, v] env =
      Run.ofExcept v.listItems >>= fun items => self (.apply f items env) := fun _ => rfl
  rw [run_apply, hstep, h]
  rfl

theorem run_applyFunction_nil (rounds calls : Nat) (env : FrameId) :
    run rounds (calls + 1) (.apply applyFunction [] env) =
      Run.fault (.arity "apply" 2 0 false) := by
  have hstep : ∀ self : Recur, Run.apply self rounds applyFunction [] env =
      Run.fault (.arity "apply" 2 0 false) := fun _ => rfl
  rw [run_apply, hstep]

/-- Calling a function with a list that calls it in turn takes more calls than the list is deep: in
any realm, and however deep that is. -/
theorem apply_applications (rounds calls n : Nat) (env : FrameId) (s : Store) :
    run rounds calls (.apply applyFunction [.function applyFunction, applications n] env) s =
      (.error (if n + 1 < calls then .fault (.arity "apply" 2 0 false) else .unfinished), s) := by
  -- one application for each call, and the innermost lacks its arguments
  induction n generalizing calls with
  | zero =>
    match calls with
    | 0 | 1 => rfl
    | calls + 2 =>
      have hnil : (applications 0).listItems = .ok [] := rfl
      rw [run_applyFunction hnil, run_applyFunction_nil, if_pos (by omega)]
      rfl
  | succ n ih =>
    cases calls with
    | zero => rfl
    | succ calls =>
      have hitems : (applications (n + 1)).listItems =
          .ok [.function applyFunction, applications n] := rfl
      rw [run_applyFunction hitems, ih calls]
      simp only [Nat.add_lt_add_iff_right]

/-! ### No bound -/

/-- Whether a request reads a form. -/
def Request.isRead : Request α → Bool
  | .read .. => true
  | _ => false

/-- Whether a request calls a function. -/
def Request.isApply : Request α → Bool
  | .apply .. => true
  | _ => false

/-- A number of calls is enough for every request of a kind: more of them change no answer. -/
def Store.CallsBounded (s : Store) (kind : {α : Type} → Request α → Bool) (bound : Nat) : Prop :=
  ∀ {α : Type} (x : Request α), kind x = true → ∀ rounds n, bound ≤ n →
    x.answer (run rounds n) s = x.answer (run rounds bound) s

namespace Store

variable (s : Store) (bound : Nat)

/-- In no store, so whatever the nesting limits are, a number of calls is enough to read every
form. -/
theorem reads_unbounded : ¬ s.CallsBounded Request.isRead bound := by
  intro h
  have hmore := h (.read .code 0 (quotes (bound + 1))) rfl 0 (bound + 2) (by omega)
  have hsame : (run 0 (bound + 2)).form .code 0 (quotes (bound + 1)) s =
      (run 0 bound).form .code 0 (quotes (bound + 1)) s := hmore
  rw [form_code_quotes, form_code_quotes] at hsame
  obtain ⟨v, t, hread⟩ := (read_quotes 0 (bound + 2) (bound + 1) 0 s).mpr (by omega)
  have hfew := (read_quotes 0 bound (bound + 1) 0 s).mp ⟨v, t, hsame.symm.trans hread⟩
  omega

/-- Nor is it enough to call every function. -/
theorem applies_unbounded : ¬ s.CallsBounded Request.isApply bound := by
  intro h
  let x : Request Value :=
    .apply applyFunction [.function applyFunction, applications bound] 0
  have hmore : run 0 (bound + 2) (.apply applyFunction _ 0) s = run 0 bound _ s :=
    h x rfl 0 (bound + 2) (by omega)
  rw [apply_applications, apply_applications, if_pos (by omega), if_neg (by omega)] at hmore
  cases hmore

end Store

/-- No bound that depends on the nesting limit of an engine only is enough for all that it reads,
or for all the functions that it calls. -/
theorem limit_bounds_no_calls : ¬ ∃ bound : Nat → Nat, ∀ (a : Allowance) (caseRule : CaseRule)
    (maxDepth : Nat) (e : Engine) (s : Store),
    Engine.create a ⟨caseRule, none, maxDepth⟩ (.empty .empty) = (.ok e, s) →
      s.CallsBounded Request.isRead (bound maxDepth) ∨
        s.CallsBounded Request.isApply (bound maxDepth) := by
  rintro ⟨bound, h⟩
  obtain ⟨e, s, hcreate, -⟩ := Engine.create_eq_ok ⟨0, 0⟩ .preserve 0 (.empty .empty)
  rcases h _ _ _ _ _ hcreate with hreads | happlies
  · exact s.reads_unbounded (bound 0) hreads
  · exact s.applies_unbounded (bound 0) happlies

end PocketLisp
