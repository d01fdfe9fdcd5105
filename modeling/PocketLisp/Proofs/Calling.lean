/-
PocketLisp/Proofs/Calling.lean

What a call of a function does before its body runs.

A function is given arguments if it takes as many; a closure takes as many as
its parameters say (`Parameters.arity`), so that there is one rule for both
kinds of functions.  Everything is said for any way to carry out the calls
that are made in turn: where none is made, nothing else of the program runs.

To enter a closure adds one frame to the store, `Store.enter`, and what binding
the parameters does is done to the bindings of that frame (`bindAll_enter`).
If there is a constant among them, the first one ends the call
(`bindAll_constant`).

Main result: `call_protocol`.
-/
import PocketLisp.Proofs.NormalForm

namespace PocketLisp

/-! ### Numbers of arguments -/

namespace Arity

/-- Whether a number of arguments is accepted. -/
def Takes : Arity → Nat → Prop
  | exactly n, actual => actual = n
  | atLeast n, actual => n ≤ actual
  | between least most, actual => least ≤ actual ∧ actual ≤ most

instance decidableTakes : (a : Arity) → (actual : Nat) → Decidable (a.Takes actual)
  | exactly n, actual => inferInstanceAs (Decidable (actual = n))
  | atLeast n, actual => inferInstanceAs (Decidable (n ≤ actual))
  | between least most, actual => inferInstanceAs (Decidable (least ≤ actual ∧ actual ≤ most))

/-- A number of arguments violates a bound, which may be a least number or not. -/
inductive Violates : Arity → (actual bound : Nat) → (least : Bool) → Prop
  | other {n actual : Nat} : actual ≠ n → Violates (.exactly n) actual n false
  | less {n actual : Nat} : actual < n → Violates (.atLeast n) actual n true
  | tooFew {least most actual : Nat} : actual < least →
    Violates (.between least most) actual least true
  | tooMany {least most actual : Nat} : least ≤ actual → most < actual →
    Violates (.between least most) actual most false

variable {a : Arity} {actual bound : Nat} {least : Bool}

/-- A number of arguments is accepted if it violates no bound. -/
theorem exists_violates_iff :
    (∃ bound least, a.Violates actual bound least) ↔ ¬ a.Takes actual := by
  constructor
  · rintro ⟨bound, least, h⟩
    cases h with
    | other h => exact h
    | less h | tooFew h | tooMany _ h => simp only [Takes]; omega
  · intro h
    cases a with
    | exactly n => exact ⟨n, false, .other h⟩
    | atLeast n => exact ⟨n, true, .less (Nat.lt_of_not_le h)⟩
    | between low high =>
      by_cases hlow : actual < low
      · exact ⟨low, true, .tooFew hlow⟩
      · rw [Nat.not_lt] at hlow
        exact ⟨high, false, .tooMany hlow (Nat.lt_of_not_le fun hhigh => h ⟨hlow, hhigh⟩)⟩

/-- The fault says which bound is violated. -/
theorem fault?_of_violates (h : a.Violates actual bound least) (name : String) :
    a.fault? name actual = some (.arity name bound actual least) := by
  cases h with
  | other h | less h | tooFew h => exact if_pos h
  | tooMany hlow hhigh =>
    rw [fault?, if_neg (Nat.not_lt.mpr hlow), if_pos hhigh]

theorem fault?_of_takes (h : a.Takes actual) (name : String) : a.fault? name actual = none := by
  cases a with
  | exactly n => exact if_neg fun hne => hne h
  | atLeast n => exact if_neg (Nat.not_lt.mpr h)
  | between low high =>
    rw [fault?, if_neg (Nat.not_lt.mpr h.1), if_neg (Nat.not_lt.mpr h.2)]

end Arity

namespace Parameters

/-- The numbers of arguments that fit the parameters. -/
def arity (p : Parameters) : Arity :=
  match p.rest with
  | some _ => .atLeast p.positional.length
  | none => .exactly p.positional.length

/-- All parameters in the order in which they are bound. -/
def names (p : Parameters) : List Symbol := p.positional ++ p.rest.toList

theorem fault?_eq (p : Parameters) (name : String) (actual : Nat) :
    p.fault? name actual = p.arity.fault? name actual := by
  obtain ⟨positional, rest⟩ := p
  cases rest <;> rfl

/-- There is an argument for each parameter but the one for the further arguments. -/
theorem length_le_of_takes {p : Parameters} {actual : Nat} (h : p.arity.Takes actual) :
    p.positional.length ≤ actual := by
  obtain ⟨positional, rest⟩ := p
  cases rest with
  | none => exact Nat.le_of_eq h.symm
  | some name => exact h

/-- The bindings of a call: the parameter for the further arguments to a list of these, and every
other one to its argument, which for a repeated name is the one in the last place. -/
structure Bound (p : Parameters) (args : List Value) (values : Bindings Value) : Prop where
  rest : ∀ name ∈ p.rest, ∃ list, values.get? name = some list ∧
    list.cars = args.drop p.positional.length ∧ list.finalTail = .nil
  positional : ∀ symbol ∉ p.rest,
    values.get? symbol = (p.positional.zip args).reverse.lookup symbol

end Parameters

/-! ### Entering a closure -/

namespace Bindings

variable {α : Type}

/-- Binds symbols one after another, as far as there are values. -/
def putAll : List Symbol → List α → Bindings α → Bindings α
  | s :: ss, a :: as, bs => putAll ss as (bs.put s a)
  | _, _, bs => bs

/-- The last one of several values of a symbol is left. -/
theorem get?_putAll (ss : List Symbol) (as : List α) (bs : Bindings α) (symbol : Symbol) :
    (putAll ss as bs).get? symbol = ((ss.zip as).reverse.lookup symbol).or (bs.get? symbol) := by
  induction ss generalizing as bs with
  | nil => rfl
  | cons s ss ih =>
    cases as with
    | nil => rfl
    | cons a as =>
      rw [putAll, ih, List.zip_cons_cons, List.reverse_cons, List.lookup_append, Option.or_assoc]
      congr 1
      by_cases h : symbol = s
      · subst h
        rw [get?_put_same, List.lookup_cons_self]
        rfl
      · rw [get?_put_of_ne h, List.lookup_cons, beq_eq_false_iff_ne.mpr h]
        rfl

end Bindings

namespace Store

variable {s : Store} {env : FrameId} {values : Bindings Value} {next : ObjectId}

/-- A store with one more frame, which extends another and has these bindings; the objects before
`next` are used. -/
def enter (s : Store) (env : FrameId) (values : Bindings Value) (next : ObjectId) : Store :=
  { s with frames := s.frames.push ⟨s.realmOf env, some env, values, []⟩, nextId := next }

theorem frame_enter_size : (s.enter env values next).frame s.frames.size =
    ⟨s.realmOf env, some env, values, []⟩ := by
  rw [frame, enter, Array.getD_eq_getD_getElem?, Array.getElem?_push_size]
  rfl

/-- The frames that were there are kept. -/
theorem frame_enter_of_lt {i : FrameId} (h : i < s.frames.size) :
    (s.enter env values next).frame i = s.frame i := by
  rw [frame, frame, enter, Array.getD_eq_getD_getElem?, Array.getD_eq_getD_getElem?,
    Array.getElem?_push_lt h, Array.getElem?_eq_getElem h]

theorem isConstant_enter (symbol : Symbol) :
    (s.enter env values next).isConstant s.frames.size symbol = s.isConstant env symbol := by
  have hrealm : (s.enter env values next).realmOf s.frames.size = s.realmOf env := by
    rw [realmOf, frame_enter_size]
  simp only [isConstant, realm, hrealm]
  rfl

theorem bindAt_enter (symbol : Symbol) (v : Value) :
    (s.enter env values next).bindAt s.frames.size symbol v =
      s.enter env (values.put symbol v) next := by
  have hframes : (s.frames.push ⟨s.realmOf env, some env, values, []⟩).modify s.frames.size
      (fun f => { f with values := f.values.put symbol v }) =
        s.frames.push ⟨s.realmOf env, some env, values.put symbol v, []⟩ := by
    apply Array.ext_getElem?
    intro i
    rw [Array.getElem?_modify, Array.getElem?_push, Array.getElem?_push]
    by_cases hi : i = s.frames.size
    · subst hi
      simp
    · rw [if_neg hi, if_neg (Ne.symm hi), if_neg hi]
  simp only [bindAt, enter, hframes]

end Store

namespace Run

variable {s : Store} {env : FrameId} {values : Bindings Value} {next : ObjectId}

theorem define_enter (values : Bindings Value) (next : ObjectId) (symbol : Symbol) (v : Value) :
    define s.frames.size symbol v (s.enter env values next) =
      if s.isConstant env symbol then
        (.error (.fault (.constantViolation symbol.name)), s.enter env values next)
      else (.ok (), s.enter env (values.put symbol v) next) := by
  rw [define_apply, Store.isConstant_enter, Store.bindAt_enter]

/-- Parameters that are no constants are bound to their arguments. -/
theorem bindAll_enter (values : Bindings Value) (next : ObjectId) {ss : List Symbol}
    (h : ∀ symbol ∈ ss, s.isConstant env symbol = false) (vs : List Value) :
    bindAll s.frames.size ss vs (s.enter env values next) =
      (.ok (), s.enter env (values.putAll ss vs) next) := by
  -- over the parameters; from one to the next, only the bindings of the new frame differ
  induction ss generalizing values vs with
  | nil => rfl
  | cons symbol ss ih =>
    cases vs with
    | nil => rfl
    | cons v vs =>
      obtain ⟨hsymbol, hss⟩ := List.forall_mem_cons.mp h
      have hdefine : define s.frames.size symbol v (s.enter env values next) = _ :=
        define_enter values next symbol v
      rw [hsymbol] at hdefine
      rw [bindAll, bind_apply_ok hdefine]
      exact ih _ hss vs

/-- The first constant among the parameters is not bound, nor is any parameter behind it. -/
theorem bindAll_constant (values : Bindings Value) (next : ObjectId) {ss : List Symbol}
    {vs : List Value} {symbol : Symbol} (hlength : ss.length ≤ vs.length)
    (h : ss.find? (s.isConstant env) = some symbol) :
    ∃ values', bindAll s.frames.size ss vs (s.enter env values next) =
      (.error (.fault (.constantViolation symbol.name)), s.enter env values' next) := by
  -- on the parameters: those in front of the constant are bound
  induction ss generalizing values vs with
  | nil => cases h
  | cons first ss ih =>
    cases vs with
    | nil => cases hlength
    | cons v vs =>
      have hdefine : define s.frames.size first v (s.enter env values next) = _ :=
        define_enter values next first v
      rw [List.find?_cons] at h
      rcases hfirst : s.isConstant env first <;> rw [hfirst] at h hdefine
      · rw [bindAll, bind_apply_ok hdefine]
        exact ih _ (Nat.le_of_succ_le_succ hlength) h
      · -- this is the first constant, which is refused
        obtain rfl := Option.some.inj h
        exact ⟨values, bind_apply_error hdefine⟩

/-- Binds the parameter for the further arguments, if there is one, to the list of these. -/
def bindRest (env : FrameId) (p : Parameters) (args : List Value) : Run Unit :=
  match p.rest with
  | some name => ofFresh (Fresh.list (args.drop p.positional.length)) >>= define env name
  | none => pure ()

/-- The list of the further arguments only takes numbers of objects. -/
theorem ofFresh_list_enter (s : Store) (env : FrameId) (values : Bindings Value) (next : ObjectId)
    (items : List Value) : ∃ list next', list.cars = items ∧ list.finalTail = .nil ∧
      ofFresh (Fresh.list items) (s.enter env values next) =
        (.ok list, s.enter env values next') := by
  have hnil : Value.nil.isCons = false := rfl
  obtain ⟨hcars, htail⟩ := Value.chain_parts next items hnil
  exact ⟨_, _, hcars, htail, ofFresh_list items _⟩

variable {p : Parameters} {args : List Value}

theorem bindRest_enter (values : Bindings Value) (next : ObjectId) (args : List Value)
    (h : ∀ name ∈ p.rest, s.isConstant env name = false) :
    ∃ values' next', bindRest s.frames.size p args (s.enter env values next) =
        (.ok (), s.enter env values' next') ∧
      (∀ name ∈ p.rest, ∃ list, values'.get? name = some list ∧
        list.cars = args.drop p.positional.length ∧ list.finalTail = .nil) ∧
      ∀ symbol ∉ p.rest, values'.get? symbol = values.get? symbol := by
  rcases hrest : p.rest with - | name
  · -- no parameter is left to bind
    exact ⟨values, next, by rw [bindRest, hrest]; rfl, nofun, fun _ _ => rfl⟩
  · -- the arguments behind the others are put into a new list
    obtain ⟨list, next', hcars, htail, hlist⟩ := ofFresh_list_enter s env values next
      (args.drop p.positional.length)
    refine ⟨values.put name list, next', ?_, ?_, fun symbol hsymbol => ?_⟩
    · rw [bindRest, hrest]
      dsimp only
      rw [bind_apply_ok hlist, define_enter, h name hrest]
      rfl
    · rintro _ ⟨⟩
      exact ⟨list, Bindings.get?_put_same .., hcars, htail⟩
    · exact Bindings.get?_put_of_ne (fun heq => hsymbol (congrArg some heq.symm)) ..

theorem bindRest_constant (values : Bindings Value) (next : ObjectId) (args : List Value)
    {name : Symbol} (hrest : p.rest = some name) (h : s.isConstant env name = true) :
    ∃ next', bindRest s.frames.size p args (s.enter env values next) =
      (.error (.fault (.constantViolation name.name)), s.enter env values next') := by
  obtain ⟨list, next', -, -, hlist⟩ := ofFresh_list_enter s env values next
    (args.drop p.positional.length)
  refine ⟨next', ?_⟩
  rw [bindRest, hrest]
  dsimp only
  rw [bind_apply_ok hlist, define_enter, h]
  rfl

/-! ### The body -/

/-- Forms are evaluated one after another, until one of them stops the run or there are no more;
`v` is the value of the form before. -/
inductive InOrder (self : Recur) (env : FrameId) :
    List Value → Value → Store → Except Stop Value × Store → Prop
  | done {v : Value} {s : Store} : InOrder self env [] v s (.ok v, s)
  | next {form v w : Value} {forms : List Value} {s t : Store} {r : Except Stop Value × Store} :
    self (.eval form env) s = (.ok w, t) → InOrder self env forms w t r →
      InOrder self env (form :: forms) v s r
  | stop {form v : Value} {forms : List Value} {s t : Store} {e : Stop} :
    self (.eval form env) s = (.error e, t) → InOrder self env (form :: forms) v s (.error e, t)

/-- The value of no forms is the empty list. -/
theorem inOrder_body (self : Recur) (forms : List Value) (env : FrameId) (s : Store) :
    InOrder self env forms .nil s (body self forms env s) := by
  have hfold : ∀ (forms : List Value) (v : Value) (s : Store), InOrder self env forms v s
      (forms.foldlM (fun _ form => self (.eval form env)) v s) := by
    intro forms
    induction forms with
    | nil => exact fun v s => .done
    | cons form forms ih =>
      intro v s
      rw [List.foldlM_cons]
      rcases h : self (.eval form env) s with ⟨e | w, t⟩
      · rw [bind_apply_error h]
        exact .stop h
      · rw [bind_apply_ok h]
        exact .next h (ih w t)
  exact hfold forms .nil s

/-! ### Calls of closures -/

variable {index : Nat} {c : Closure}

theorem callClosure_of_violates (hc : s.closure index = c) {bound : Nat} {least : Bool}
    (h : c.params.arity.Violates args.length bound least) (self : Recur) :
    callClosure self index args s =
      (.error (.fault (.arity c.displayName bound args.length least)), s) := by
  rw [callClosure, bind_apply_ok (read_apply _ s), hc, Parameters.fault?_eq,
    Arity.fault?_of_violates h]
  rfl

/-- The call of a closure that takes the arguments, in its steps. -/
theorem callClosure_of_takes (hc : s.closure index = c) (h : c.params.arity.Takes args.length)
    (self : Recur) :
    callClosure self index args s =
      (bindAll s.frames.size c.params.positional args >>= fun _ =>
        bindRest s.frames.size c.params args >>= fun _ =>
          body self c.body s.frames.size) (s.enter c.env [] s.nextId) := by
  rw [callClosure, bind_apply_ok (read_apply _ s), hc, Parameters.fault?_eq,
    Arity.fault?_of_takes h, bindRest]
  rcases c.params.rest with - | name
  · rfl
  · rw [bind_assoc]
    rfl

/-- A closure without constants among its parameters is entered, and its body is run. -/
theorem callClosure_enters (hc : s.closure index = c) (h : c.params.arity.Takes args.length)
    (hfree : ∀ symbol ∈ c.params.names, s.isConstant c.env symbol = false) :
    ∃ values next, c.params.Bound args values ∧ ∀ self, callClosure self index args s =
      body self c.body s.frames.size (s.enter c.env values next) := by
  obtain ⟨hpositional, hrest⟩ := List.forall_mem_append.mp hfree
  have hbind := bindAll_enter [] s.nextId hpositional args
  obtain ⟨values, next, hbindRest, hlist, hother⟩ :=
    bindRest_enter (Bindings.putAll c.params.positional args []) s.nextId args
      fun name hname => hrest name (Option.mem_toList.mpr hname)
  refine ⟨values, next, ⟨hlist, fun symbol hsymbol => ?_⟩, fun self => ?_⟩
  · rw [hother symbol hsymbol, Bindings.get?_putAll]
    exact Option.or_none
  · rw [callClosure_of_takes hc h, bind_apply_ok hbind, bind_apply_ok hbindRest]

/-- The first constant among the parameters ends the call. -/
theorem callClosure_constant (hc : s.closure index = c) (h : c.params.arity.Takes args.length)
    {symbol : Symbol} (hfind : c.params.names.find? (s.isConstant c.env) = some symbol) :
    ∃ values next, ∀ self, callClosure self index args s =
      (.error (.fault (.constantViolation symbol.name)), s.enter c.env values next) := by
  rw [Parameters.names, List.find?_append, Option.or_eq_some_iff] at hfind
  -- the constant has an argument of its own, or all parameters that have one are bound before it
  rcases hfind with hfind | ⟨hnone, hfind⟩
  · obtain ⟨values, hbind⟩ := bindAll_constant [] s.nextId
      (Parameters.length_le_of_takes h) hfind
    refine ⟨values, s.nextId, fun self => ?_⟩
    rw [callClosure_of_takes hc h, bind_apply_error hbind]
  · have hbind := bindAll_enter [] s.nextId
      (fun x hx => eq_false_of_ne_true (List.find?_eq_none.mp hnone x hx)) args
    have hrest : c.params.rest = some symbol :=
      Option.mem_toList.mp (List.mem_of_find?_eq_some hfind)
    obtain ⟨next, hbindRest⟩ :=
      bindRest_constant (Bindings.putAll c.params.positional args []) s.nextId args hrest
        (List.find?_some hfind)
    refine ⟨Bindings.putAll c.params.positional args [], next, fun self => ?_⟩
    rw [callClosure_of_takes hc h, bind_apply_ok hbind, bind_apply_error hbindRest]

/-! ### Calls of primitives -/

variable {n : Native}

theorem apply_native_of_violates {bound : Nat} {least : Bool}
    (h : n.arity.Violates args.length bound least) (self : Recur) (rounds : Nat) :
    apply self rounds (.native n) args env s =
      (.error (.fault (.arity n.name bound args.length least)), s) := by
  refine apply_refused ?_ self rounds env s
  rw [Arity.check, Arity.fault?_of_violates h]

theorem apply_native_of_takes (h : n.arity.Takes args.length) (self : Recur) (rounds : Nat) :
    apply self rounds (.native n) args env = primitive self rounds n.name n.body args env := by
  refine apply_native ?_ self rounds env
  rw [Arity.check, Arity.fault?_of_takes h]

end Run

/-! ### Main result -/

namespace Function

/-- The numbers of arguments that a function takes. -/
def arity (s : Store) : Function → Arity
  | .native n => n.arity
  | .closure ref => (s.closure ref.index).params.arity

/-- The name of a function in faults: a primitive has one, a closure has that of the symbol that it
was defined by, and one without is called `lambda`. -/
inductive Named (s : Store) : Function → String → Prop
  | native {n : Native} : Named s (.native n) n.name
  | closure {ref : ClosureRef} {symbol : Symbol} : (s.closure ref.index).name = some symbol →
      Named s (.closure ref) symbol.name
  | anonymous {ref : ClosureRef} : (s.closure ref.index).name = none →
      Named s (.closure ref) "lambda"

theorem named_closure (s : Store) (ref : ClosureRef) :
    Named s (.closure ref) (s.closure ref.index).displayName := by
  rw [Closure.displayName]
  rcases h : (s.closure ref.index).name with - | symbol
  · exact .anonymous h
  · exact .closure h

end Function

/-- What every call of a function does first, whatever the calls that it makes in turn do.

* A number of arguments that violates a bound is a fault, which says the name of the function, the
  bound, the number and whether the bound is a least number.  The store stays as it is.  Every
  number that is not accepted violates a bound.
* A primitive that accepts its arguments is run.
* A closure that accepts its arguments and has no constant among its parameters evaluates the forms
  of its body in order, in a new frame that extends the one it was made in and binds just the
  parameters.
* A closure that accepts its arguments and has a constant among its parameters ends with the fault
  of the first one, and all frames that were there stay as they are.

The call does not count as a nested step. -/
theorem call_protocol (rounds : Nat) (f : Function) (args : List Value) (env : FrameId)
    (s : Store) :
    (∀ calls, run rounds (calls + 1) (.apply f args env) s =
      perform (run rounds calls) rounds (.apply f args env) s) ∧
    (¬ (f.arity s).Takes args.length ↔
      ∃ bound least, (f.arity s).Violates args.length bound least) ∧
    (∃ name, f.Named s name ∧
      ∀ bound least, (f.arity s).Violates args.length bound least → ∀ self : Recur,
        perform self rounds (.apply f args env) s =
          (.error (.fault (.arity name bound args.length least)), s)) ∧
    ((f.arity s).Takes args.length →
      (∀ n, f = .native n → ∀ self : Recur, perform self rounds (.apply f args env) s =
        Run.primitive self rounds n.name n.body args env s) ∧
      ∀ ref, f = .closure ref →
        let c := s.closure ref.index
        ((∀ symbol ∈ c.params.names, s.isConstant c.env symbol = false) →
          ∃ values next, c.params.Bound args values ∧ ∀ self : Recur,
            Run.InOrder self s.frames.size c.body .nil (s.enter c.env values next)
              (perform self rounds (.apply f args env) s)) ∧
        ∀ constant ∈ c.params.names, s.isConstant c.env constant = true →
          ∃ first, c.params.names.find? (s.isConstant c.env) = some first ∧
            ∃ values next, (∀ i < s.frames.size, (s.enter c.env values next).frame i = s.frame i) ∧
              ∀ self : Recur, perform self rounds (.apply f args env) s =
                (.error (.fault (.constantViolation first.name)), s.enter c.env values next)) := by
  refine ⟨fun calls => rfl, Arity.exists_violates_iff.symm, ?_, fun h => ⟨?_, ?_⟩⟩
  · -- a wrong number of arguments is told with the name of the function
    cases f with
    | native n =>
      exact ⟨n.name, .native, fun _ _ h self => Run.apply_native_of_violates h self rounds⟩
    | closure ref =>
      exact ⟨_, Function.named_closure s ref, fun _ _ h self =>
        Run.callClosure_of_violates rfl h self⟩
  · -- a native carries out its primitive
    rintro n rfl self
    exact congrFun (Run.apply_native_of_takes h self rounds) s
  · rintro ref rfl c
    refine ⟨fun hfree => ?_, fun constant hmem hconstant => ?_⟩
    · -- all parameters can be bound: the body is evaluated in the new frame
      obtain ⟨values, next, hbound, heq⟩ := Run.callClosure_enters rfl h hfree
      refine ⟨values, next, hbound, fun self => ?_⟩
      have hbody := Run.inOrder_body self c.body s.frames.size (s.enter c.env values next)
      rwa [← heq self] at hbody
    · -- one of them is a constant: the first such ends the call
      obtain ⟨first, hfirst⟩ := Option.isSome_iff_exists.mp
        (List.find?_isSome.mpr ⟨constant, hmem, hconstant⟩)
      obtain ⟨values, next, heq⟩ := Run.callClosure_constant rfl h hfirst
      exact ⟨first, hfirst, values, next, fun i hi => Store.frame_enter_of_lt hi, heq⟩

/-- The closure of `(x x &rest y)`, which has no name, is called with one argument and with three;
that of `(x)`, which is called `f`, with none; the primitive `car` with two; and the closure of
`(x k)`, where `k` is a constant, with two. -/
theorem call_protocol_of_lists :
    let x : Symbol := ⟨0, 0, "x", none⟩
    let y : Symbol := ⟨1, 0, "y", none⟩
    let k : Symbol := ⟨2, 0, "k", none⟩
    let f : Symbol := ⟨3, 0, "f", none⟩
    let s : Store := { Store.empty .empty with
      frames := #[⟨0, none, [(k, .t)], []⟩]
      closures := #[⟨none, ⟨[x, x], some y⟩, [.symbol x], 0⟩, ⟨none, ⟨[x, k], none⟩, [], 0⟩,
        ⟨some f, ⟨[x], none⟩, [.symbol x], 0⟩]
      realms := #[⟨.empty 0 .preserve, [k], 0, 10⟩] }
    (∀ self : Recur, perform self 0 (.apply (.closure ⟨0, none⟩) [.t] 0) s =
      (.error (.fault (.arity "lambda" 2 1 true)), s)) ∧
    (∀ self : Recur, perform self 0 (.apply (.closure ⟨2, some f⟩) [] 0) s =
      (.error (.fault (.arity "f" 1 0 false)), s)) ∧
    (∀ self : Recur, perform self 0 (.apply (.native ⟨0, "car", .exactly 1, .car⟩) [.t, .t] 0) s =
      (.error (.fault (.arity "car" 1 2 false)), s)) ∧
    (∃ values next, values.get? x = some .nil ∧
      (∃ list, values.get? y = some list ∧ list.cars = [.t] ∧ list.finalTail = .nil) ∧
      ∀ self : Recur, Run.InOrder self 1 [.symbol x] .nil (s.enter 0 values next)
        (perform self 0 (.apply (.closure ⟨0, none⟩) [.t, .nil, .t] 0) s)) ∧
    ∃ values next, ∀ self : Recur, perform self 0 (.apply (.closure ⟨1, none⟩) [.t, .t] 0) s =
      (.error (.fault (.constantViolation "k")), s.enter 0 values next) := by
  intro x y k f s
  refine ⟨?_, ?_, ?_, ?_, ?_⟩
  · -- a closure without a name is told of as a lambda
    obtain ⟨name, hname, hfault⟩ := (call_protocol 0 (.closure ⟨0, none⟩) [.t] 0 s).2.2.1
    obtain rfl : name = "lambda" := by
      cases hname with
      | closure h => cases h
      | anonymous => rfl
    exact hfault 2 true (.less (by decide))
  · -- a closure with a name, and a native
    obtain ⟨name, hname, hfault⟩ := (call_protocol 0 (.closure ⟨2, some f⟩) [] 0 s).2.2.1
    obtain rfl : name = "f" := by
      cases hname with
      | closure h => cases h; rfl
      | anonymous h => cases h
    exact hfault 1 false (.other (by decide))
  · obtain ⟨name, hname, hfault⟩ := (call_protocol 0 (.native ⟨0, "car", .exactly 1, .car⟩)
      [.t, .t] 0 s).2.2.1
    cases hname
    exact hfault 1 false (.other (by decide))
  · -- a parameter that is listed twice has the last argument, and the others are in a list
    have htakes : (Function.arity s (.closure ⟨0, none⟩)).Takes [Value.t, .nil, .t].length := by
      show 2 ≤ 3
      decide
    obtain ⟨values, next, hbound, hbody⟩ := ((call_protocol 0 (.closure ⟨0, none⟩) [.t, .nil, .t] 0
      s).2.2.2 htakes).2 _ rfl |>.1 (by decide)
    refine ⟨values, next, ?_, hbound.rest y rfl, hbody⟩
    exact hbound.positional x (by decide)
  · -- the second parameter is a constant
    have htakes : (Function.arity s (.closure ⟨1, none⟩)).Takes [Value.t, .t].length := rfl
    obtain ⟨first, hfirst, values, next, -, hfault⟩ := ((call_protocol 0 (.closure ⟨1, none⟩)
      [.t, .t] 0 s).2.2.2 htakes).2 _ rfl |>.2 k (by decide) (by decide)
    obtain rfl := Option.some.inj hfirst
    exact ⟨values, next, hfault⟩

end PocketLisp
