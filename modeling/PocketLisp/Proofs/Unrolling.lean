/-
PocketLisp/Proofs/Unrolling.lean

A loop and its first round written out.

`(if c (progn b … (while c b …)) nil)` does what `(while c b …)` does, but two
and three nested steps deeper.  So the two are compared by rounds, the written
out loop in an interpreter that gives up where it has no room: the first round
with the first round, one step less deep, and the loop that is left with the
loop that is left, two steps less deep.  All parts go in lockstep, as they do
wherever there is more room (`exhausting_lockstep`).

A program of the host that is called in between and evaluates something can
tell how deep it is: it gets to know whether there was room
(`unrolling_noticed`).

Main result: `while_of_unrolled`.
-/
import PocketLisp.Proofs.Exhausting
import PocketLisp.Proofs.SpecialForms

namespace PocketLisp

section Loops

variable {P : Pairing} {s t : Store} {env : FrameId} {condition : Value} {forms : List Value}
  {whileForm prognForm ifForm : Value}

/-- A sequence of forms with one more at its end. -/
theorem Run.body_append (self : Recur) (forms : List Value) (form : Value) (env : FrameId) :
    Run.body self (forms ++ [form]) env =
      Run.body self forms env >>= fun _ => self (.eval form env) := by
  simp only [Run.body, List.foldlM_append, List.foldlM_cons, List.foldlM_nil, bind_pure]

/-- Lists are evaluated in nested steps, whatever they are. -/
theorem Call.nested_eval {form form' : Value} (h : (Call.eval form env).nestsIn? = some env)
    (h' : (Call.eval form' env).nestsIn? = some env) (body : Run Value) :
    (Call.eval form env).nested body = (Call.eval form' env).nested body := by
  funext s
  simp only [Call.nested, h, h']
  rfl

section Rounds

variable {rounds rounds' left calls calls' : Nat}

/-- The loop that is left, one nested step deeper than what goes on of the loop itself. -/
theorem rest_lockstep (hP : P.Looser) (hwhile : whileForm.IsForm .whileLoop (condition :: forms))
    (hforms : forms ≠ []) (hrounds : rounds ≤ rounds') (hleft : rounds ≤ left)
    (hcalls : calls ≤ calls') :
    Lockstep P P.Stopped (runStopping .exhausting rounds calls (.eval whileForm env))
      (Run.whileTrue (run rounds' calls') condition forms env left) := by
  refine Lockstep.sunk hP.cut (hwhile.nestsIn? env) fun n hn realm => ?_
  have hstep : RecurLockstep (P.sunk realm) (runStopping .exhausting rounds n)
      (run rounds' calls') := exhausting_lockstep (hP.sunk realm) hrounds (by omega)
  obtain ⟨name, hform⟩ := hwhile.form_eq
  obtain ⟨form, forms, rfl⟩ := List.exists_cons_of_ne_nil hforms
  rw [perform, hform]
  exact Lockstep.whileTrue hstep condition (form :: forms) env (.inr ⟨hP.cut, hleft⟩)

/-- The first round and the loop that is left after it, both one nested step deeper. -/
theorem round_lockstep (hP : P.Looser) (hwhile : whileForm.IsForm .whileLoop (condition :: forms))
    (hforms : forms ≠ []) (hprogn : prognForm.IsForm .progn (forms ++ [whileForm]))
    (hrounds : rounds ≤ rounds') (hleft : rounds ≤ left) (hcalls : calls ≤ calls') :
    Lockstep P P.Stopped (runStopping .exhausting rounds calls (.eval prognForm env))
      (Run.body (run rounds' calls') forms env >>= fun _ =>
        Run.whileTrue (run rounds' calls') condition forms env left) := by
  refine Lockstep.sunk hP.cut (hprogn.nestsIn? env) fun n hn realm => ?_
  have hstep : RecurLockstep (P.sunk realm) (runStopping .exhausting rounds n)
      (run rounds' calls') := exhausting_lockstep (hP.sunk realm) hrounds (by omega)
  obtain ⟨name, hform⟩ := hprogn.form_eq
  rw [perform, hform, Run.specialForm, Run.body_append]
  refine (Lockstep.body hstep forms env).bind fun _ => ?_
  exact rest_lockstep (hP.sunk realm) hwhile hforms hrounds hleft (by omega)

/-- The written out loop, as deep as the loop itself up to the condition. -/
theorem unrolled_lockstep (hP : P.Looser)
    (hwhile : whileForm.IsForm .whileLoop (condition :: forms)) (hforms : forms ≠ [])
    (hprogn : prognForm.IsForm .progn (forms ++ [whileForm]))
    (hif : ifForm.IsForm .ifThenElse [condition, prognForm, .nil])
    (hrounds : rounds < rounds') (hcalls : calls ≤ calls') :
    Lockstep P P.Stopped
      (perform (runStopping .exhausting rounds calls) rounds (.eval ifForm env))
      (perform (run rounds' calls') rounds' (.eval whileForm env)) := by
  have hstep : RecurLockstep P (runStopping .exhausting rounds calls) (run rounds' calls') :=
    exhausting_lockstep hP (Nat.le_of_lt hrounds) hcalls
  obtain ⟨name, hform⟩ := hif.form_eq
  obtain ⟨name', hform'⟩ := hwhile.form_eq
  obtain ⟨form, forms, rfl⟩ := List.exists_cons_of_ne_nil hforms
  obtain ⟨left, rfl⟩ := Nat.exists_eq_add_of_le' (Nat.lt_of_le_of_lt (Nat.zero_le _) hrounds)
  rw [perform, perform, hform, hform']
  show Lockstep P P.Stopped _ (Run.whileTrue _ _ _ _ (left + 1))
  rw [Run.specialForm, Run.whileTrue]
  -- both forms start with the condition; the else form needs a call of its own
  refine (hstep (.eval condition env)).bind fun v => ?_
  cases v.isTrue with
  | true =>
    exact round_lockstep hP hwhile hforms hprogn (Nat.le_of_lt hrounds) (Nat.le_of_lt_succ hrounds)
      hcalls
  | false =>
    cases calls with
    | zero => exact fun _ _ _ => .inl hP.cut
    | succ calls => exact Lockstep.pure _

end Rounds

/-- Whatever a loop with its first round written out ends in, other than for want of nested steps or
of an allowance, the loop ends in too: with the same result or fault, and in the same store, which
holds all that has been printed.  No program of the host may have swallowed the want of a nested
step; this is so where they do not evaluate anything.  The loop may need one round more. -/
theorem while_of_unrolled (hwhile : whileForm.IsForm .whileLoop (condition :: forms))
    (hforms : forms ≠ []) (hprogn : prognForm.IsForm .progn (forms ++ [whileForm]))
    (hif : ifForm.IsForm .ifThenElse [condition, prognForm, .nil]) {a a' : Allowance}
    {r : Except Stop Value} (hrun : a.run (.eval ifForm env) s = (r, t))
    (hr : ∀ stop, r = .error stop → ¬ stop.Short)
    (hheld : s.Quiet ∨ a.Unrefused (.eval ifForm env) s)
    (hcalls : a.calls ≤ a'.calls) (hrounds : a.rounds < a'.rounds) :
    a'.run (.eval whileForm env) s = (r, t) := by
  have hunrefused : runStopping .exhausting a.rounds a.calls (.eval ifForm env) s = (r, t) := by
    rw [← hrun]
    exact hheld.elim (fun hs => unrefused_of_quiet hs (by rwa [hrun])) id
  obtain ⟨calls, rounds⟩ := a
  obtain ⟨calls', rounds'⟩ := a'
  have hended : r ≠ .error .unfinished := fun h => hr .unfinished h .unfinished
  cases calls with
  | zero => exact absurd (congrArg Prod.fst hunrefused).symm hended
  | succ calls =>
  obtain ⟨calls', rfl⟩ := Nat.exists_eq_add_of_le' (Nat.lt_of_lt_of_le (Nat.succ_pos _) hcalls)
  -- the conditional found room for its step, and so does the loop
  rcases hrule : StopRule.exhausting (Call.eval ifForm env) s with - | e
  · let P : Pairing := ⟨(· = .unfinished), False, nofun, s.level, s.level⟩
    have hP : P.Looser := ⟨rfl, fun _ => Nat.le_refl _⟩
    have hties : P.Ties s s := ⟨.refl s, rfl, rfl, False.elim⟩
    rw [runStopping_of_none hrule, Call.nested_eval (hif.nestsIn? env) (hwhile.nestsIn? env)]
      at hunrefused
    have hlockstep {Q : Pairing} (hQ : Q.Looser) : Lockstep Q Q.Stopped
        (perform (runStopping .exhausting rounds calls) rounds (.eval ifForm env))
        (perform (run rounds' calls') rounds' (.eval whileForm env)) :=
      unrolled_lockstep hQ hwhile hforms hprogn hif hrounds (Nat.le_of_succ_le_succ hcalls)
    have hroom : ∀ i, (Call.eval whileForm env).nestsIn? = some i →
        (P.low (s.realmOf i)).HasRoom ∧ (P.high (s.realmOf i)).HasRoom := fun i hi => by
      rw [hwhile.nestsIn? env] at hi
      cases hi
      have hroom := StopRule.exhausting_of_none hrule (hif.nestsIn? env)
      exact ⟨hroom, hroom⟩
    have hstep := nested_of_room (.eval whileForm env) hties hroom (fun _ => hlockstep hP)
      fun _ => hlockstep (hP.raised _)
    rw [hunrefused] at hstep
    rcases hstep with hstopped | ⟨hresult, hend⟩
    · cases r with
      | ok v => exact hstopped.elim
      | error stop => exact absurd (congrArg Except.error hstopped) hended
    · exact Prod.ext hresult (hend.alike.eq_of_level (hend.high.trans hend.low.symm))
  · obtain ⟨rfl, -⟩ := StopRule.exhausting_of_some hrule
    rw [runStopping_of_some hrule] at hunrefused
    exact absurd (congrArg Prod.fst hunrefused).symm hended

end Loops

/-! ### A loop of one round -/

namespace Once

/-- A list of new cells. -/
def listed (items : List Value) : Value := items.foldr (.cons 0) .nil

def x : Symbol := ⟨0, 0, "x", none⟩

def print : Symbol := ⟨1, 0, "print", none⟩

/-- The forms `(setq x nil)` and `(print nil)`. -/
def forms : List Value :=
  [listed [.symbol ⟨2, 0, "setq", some (.form .setq)⟩, .symbol x, .nil],
    listed [.symbol print, .nil]]

/-- A loop that is left after one round. -/
def whileForm : Value :=
  listed (.symbol ⟨3, 0, "while", some (.form .whileLoop)⟩ :: .symbol x :: forms)

def prognForm : Value :=
  listed (.symbol ⟨4, 0, "progn", some (.form .progn)⟩ :: forms ++ [whileForm])

/-- The loop with its first round written out. -/
def ifForm : Value :=
  listed [.symbol ⟨5, 0, "if", some (.form .ifThenElse)⟩, .symbol x, prognForm, .nil]

theorem isForm_whileForm : whileForm.IsForm .whileLoop (.symbol x :: forms) :=
  ⟨0, _, _, rfl, rfl, rfl⟩

theorem isForm_prognForm : prognForm.IsForm .progn (forms ++ [whileForm]) :=
  ⟨0, _, _, rfl, rfl, rfl⟩

theorem isForm_ifForm : ifForm.IsForm .ifThenElse [.symbol x, prognForm, .nil] :=
  ⟨0, _, _, rfl, rfl, rfl⟩

/-- A store in which `x` is true and three nested steps are possible, with subscribers to what is
printed. -/
def store (subscribers : Array Subscriber) : Store where
  frames := #[⟨0, none, [(x, .t), (print, .function (.native ⟨0, "print", .exactly 1, .print 0⟩))],
    []⟩]
  closures := #[]
  realms := #[⟨.empty 0 .preserve, [], 0, 3⟩]
  channels := #[subscribers]
  portTables := #[]
  hosts := #[]
  nextId := 1
  files := .empty
  sought := []
  transcript := #[]

/-- A subscriber that notes what it gets. -/
def noting : Subscriber := ⟨fun content => .note content (.done .nil), false⟩

/-- A subscriber that evaluates a list and notes whether there was room for that. -/
def evaluating : Subscriber :=
  ⟨fun _ => .eval (listed [.symbol ⟨6, 0, "quote", some (.form .quote)⟩, .t]) 0 fun r =>
    .note (if r matches .ok _ then "room" else "no room") (.done .nil), false⟩

end Once

open Once in
/-- A loop of one round, of which a subscriber takes note. -/
theorem while_of_unrolled_once :
    let s := store #[noting]
    s.Quiet ∧ ((⟨9, 1⟩ : Allowance).run (.eval ifForm 0) s).1 = .ok .nil ∧
      (⟨9, 2⟩ : Allowance).run (.eval whileForm 0) s =
        (.ok .nil, ((⟨9, 1⟩ : Allowance).run (.eval ifForm 0) s).2) := by
  intro s
  have hs : s.Quiet := by
    refine ⟨fun h => by simp [s, store] at h, fun {i j xs y} hxs hy content => ?_⟩
    obtain ⟨hi, rfl⟩ := Array.getElem?_eq_some_iff.mp hxs
    obtain rfl : i = 0 := Nat.lt_one_iff.mp hi
    obtain ⟨hj, rfl⟩ := Array.getElem?_eq_some_iff.mp hy
    obtain rfl : j = 0 := Nat.lt_one_iff.mp hj
    exact .note (.done .nil)
  have hrun : ((⟨9, 1⟩ : Allowance).run (.eval ifForm 0) s).1 = .ok .nil := by decide +kernel
  have hended : (⟨9, 1⟩ : Allowance).run (.eval ifForm 0) s =
      (.ok .nil, ((⟨9, 1⟩ : Allowance).run (.eval ifForm 0) s).2) := by
    rw [← hrun]
    exact Prod.mk.eta.symm
  refine ⟨hs, hrun, ?_⟩
  exact while_of_unrolled isForm_whileForm nofun isForm_prognForm isForm_ifForm hended nofun
    (.inl hs) (Nat.le_refl 9) (Nat.lt_succ_self 1)

open Once in
/-- With its first round written out, the loop leaves no room for what the subscriber evaluates.
Both end with the same result, but the host has noted something else. -/
theorem unrolling_noticed :
    let s := store #[evaluating]
    let ended (form : Value) := (⟨9, 3⟩ : Allowance).run (.eval form 0) s
    (ended ifForm).1 = .ok .nil ∧ (ended ifForm).2.transcript = #["no room"] ∧
      (ended whileForm).1 = .ok .nil ∧ (ended whileForm).2.transcript = #["room"] := by
  decide +kernel

end PocketLisp
