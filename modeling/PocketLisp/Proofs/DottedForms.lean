/-
PocketLisp/Proofs/DottedForms.lean

Forms that end in a dotted tail.

Behind at least one argument the tail of a form is its last argument, whatever the
head is: the form is evaluated, and its macro calls are expanded, as in the proper
list that has the tail as its last element.  A special form and a macro call of a
head and a tail alone are refused.

This leaves the calls of functions with a tail alone.  The items behind the head are
those of the tail itself then, which is no list and has none; so the tail is passed
over, and the function is called without arguments (`call_without_tail`).

Main result: `tail_is_last_argument`.
-/
import PocketLisp.Proofs.NormalForm

namespace PocketLisp

variable {form proper head tail v w : Value} {args items : List Value} {env : FrameId}
  {s t : Store} {self : Recur} {rounds calls : Nat}

/-! ### Lists with a tail -/

namespace Value

/-- A list of these elements in front of this tail. -/
def IsListOf (v : Value) (items : List Value) (tail : Value) : Prop :=
  v.cars = items ∧ v.finalTail = tail

theorem IsListOf.exists_cons (h : v.IsListOf (head :: items) tail) :
    ∃ id rest, v = .cons id head rest ∧ rest.IsListOf items tail := by
  obtain ⟨hcars, htail⟩ := h
  cases v with
  | cons id a d =>
    obtain ⟨rfl, hrest⟩ := List.cons.inj hcars
    exact ⟨id, d, rfl, hrest, htail⟩
  | _ => cases hcars

/-- Nothing in front of a tail is the tail. -/
theorem IsListOf.eq_tail (h : v.IsListOf [] tail) : v = tail := by
  obtain ⟨hcars, htail⟩ := h
  cases v with
  | cons id a d => cases hcars
  | _ => exact htail

theorem IsListOf.items_eq (h : v.IsListOf (head :: items) tail) :
    v.items = head :: items ++ tail.tailItems ∧
      v.listItems = .ok (head :: items ++ tail.tailItems) := by
  have hitems : v.isList = true → v.items = head :: items ++ tail.tailItems := fun hlist => by
    rw [Value.items_eq hlist, h.1, h.2]
  obtain ⟨id, rest, rfl, -⟩ := h.exists_cons
  exact ⟨hitems rfl, congrArg Except.ok (hitems rfl)⟩

theorem tailItems_of_not_isList (h : tail.isList = false) : tail.tailItems = [tail] := by
  cases tail with
  | nil | cons => cases h
  | _ => rfl

/-- Behind an element, a tail that is no list is an item as the last element of a proper list is. -/
theorem IsListOf.items_eq_of_last (hv : v.IsListOf args tail)
    (hw : w.IsListOf (args ++ [tail]) .nil) (htail : tail.isList = false) (hargs : args ≠ []) :
    v.items = w.items ∧ v.listItems = w.listItems := by
  obtain ⟨a, rest, rfl⟩ := List.exists_cons_of_ne_nil hargs
  obtain ⟨hitems, hlist⟩ := hv.items_eq
  obtain ⟨hitems', hlist'⟩ := hw.items_eq
  rw [hitems, hlist, hitems', hlist', tailItems_of_not_isList htail]
  exact ⟨(List.append_nil _).symm, congrArg Except.ok (List.append_nil _).symm⟩

end Value

/-! ### Evaluation -/

/-- Nested steps in one frame that do the same, and are refused alike. -/
theorem nested_congr {c c' : Call Value} {m m' : Run Value} (hc : c.nestsIn? = some env)
    (hc' : c'.nestsIn? = some env) (hrefused : ∀ f, c.refused f = c'.refused f)
    (h : m (s.deepen env) = m' (s.deepen env)) : c.nested m s = c'.nested m' s := by
  simp only [Call.nested, hc, hc', hrefused, h]

/-- Lists that are evaluated by the same steps. -/
theorem eval_congr {id id' : ObjectId} {a a' d d' : Value}
    (h : ∀ (self : Recur) (rounds : Nat), Run.form self rounds (.cons id a d) env =
      Run.form self rounds (.cons id' a' d') env) :
    run rounds calls (.eval (.cons id a d) env) s =
      run rounds calls (.eval (.cons id' a' d') env) s := by
  cases calls with
  | zero => rfl
  | succ calls =>
    have hbody := h (run rounds calls) rounds
    exact nested_congr rfl rfl (fun _ => rfl) (congrFun hbody _)

/-- Behind an argument, the tail is evaluated as the last argument. -/
theorem eval_of_last (hform : form.IsListOf (head :: args) tail)
    (hproper : proper.IsListOf (head :: (args ++ [tail])) .nil) (htail : tail.isList = false)
    (hargs : args ≠ []) :
    run rounds calls (.eval form env) s = run rounds calls (.eval proper env) s := by
  obtain ⟨id, rest, rfl, hrest⟩ := hform.exists_cons
  obtain ⟨id', rest', rfl, hrest'⟩ := hproper.exists_cons
  obtain ⟨hitems, hlist⟩ := hrest.items_eq_of_last hrest' htail hargs
  refine eval_congr fun self rounds => ?_
  simp only [Run.form, Run.call, hitems, hlist]

/-- A nested step that fails and changes nothing. -/
theorem nested_of_fault {c : Call Value} {m : Run Value} {f : Fault} (hc : c.nestsIn? = some env)
    (hrefused : ∀ f, c.refused f = .error (.fault f))
    (hm : m (s.deepen env) = (.error (.fault f), s.deepen env)) :
    c.nested m s = (.error (.fault ((s.depthFault? env).getD f)), s) := by
  rcases hfault : s.depthFault? env with - | f'
  · have hstore : (s.deepen env).riseIn (s.realmOf env) = s :=
      ((Store.unseen_of_realms fun _ _ => rfl : Store.Unseen fun _ => ()).harmless.toBlind.nested
        (Store.depthFault?_eq_none_iff.mp hfault)).2
    simp only [Call.nested, hc, hfault, hm, hstore]
    rfl
  · simp only [Call.nested, hc, hfault, hrefused]
    rfl

/-- A special form of a head and a tail is refused. -/
theorem eval_of_special (hform : form.IsListOf [head] tail) (htail : tail.isList = false)
    {f : SpecialForm} {name : String} (hspecial : Run.specialHead? head = some (f, name)) :
    run rounds (calls + 1) (.eval form env) s =
      (.error (.fault ((s.depthFault? env).getD (.listExpected tail.print))), s) := by
  obtain ⟨id, rest, rfl, hrest⟩ := hform.exists_cons
  obtain rfl := hrest.eq_tail
  have hlist : rest.listItems = .error (.listExpected rest.print) := by
    rw [Value.listItems, htail]
    rfl
  refine nested_of_fault rfl (fun _ => rfl) ?_
  simp only [perform, Run.form, hspecial, hlist]
  rfl

/-- The tail of any other list of a head and a tail is passed over. -/
theorem eval_of_tail_alone (hform : form.IsListOf [head] tail) (htail : tail.isList = false)
    (hspecial : Run.specialHead? head = none) (id : ObjectId) :
    run rounds calls (.eval form env) s = run rounds calls (.eval (.cons id head .nil) env) s := by
  obtain ⟨id', rest, rfl, hrest⟩ := hform.exists_cons
  obtain rfl := hrest.eq_tail
  have hitems : rest.items = Value.nil.items := by
    cases rest with
    | nil | cons => cases htail
    | _ => rfl
  refine eval_congr fun self rounds => ?_
  simp only [Run.form, Run.call, hspecial, hitems]

/-! ### Expansion -/

/-- Behind an argument, the tail is given to the expander as the last argument. -/
theorem once?_of_last (hform : form.IsListOf (head :: args) tail)
    (hproper : proper.IsListOf (head :: (args ++ [tail])) .nil) (htail : tail.isList = false)
    (hargs : args ≠ []) :
    Run.Expansion.once? self form env = Run.Expansion.once? self proper env := by
  obtain ⟨id, rest, rfl, hrest⟩ := hform.exists_cons
  obtain ⟨id', rest', rfl, hrest'⟩ := hproper.exists_cons
  obtain ⟨-, hlist⟩ := hrest.items_eq_of_last hrest' htail hargs
  cases head with
  | symbol => simp only [Run.Expansion.once?, hlist]
  | _ => rfl

/-- A macro call with a tail behind an argument is expanded as the one with one argument more. -/
theorem expand_of_last (hform : form.IsListOf (head :: args) tail)
    (hproper : proper.IsListOf (head :: (args ++ [tail])) .nil) (htail : tail.isList = false)
    (hargs : args ≠ []) (hcall : form.isCall (s.expander? env) = true) :
    run rounds calls (.expand form env) s = run rounds calls (.expand proper env) s := by
  have honce (self : Recur) :
      Run.Expansion.once? self form env = Run.Expansion.once? self proper env :=
    once?_of_last hform hproper htail hargs
  obtain ⟨id, rest, rfl, -⟩ := hform.exists_cons
  obtain ⟨id', rest', rfl, -⟩ := hproper.exists_cons
  cases calls with
  | zero => rfl
  | succ calls =>
    have hhead : Run.Expansion.head (run rounds calls) env rounds (.cons id head rest)
        (s.deepen env) =
        Run.Expansion.head (run rounds calls) env rounds (.cons id' head rest') (s.deepen env) := by
      cases rounds with
      | zero => rfl
      | succ n =>
        rw [Run.Expansion.head, Run.Expansion.head, Run.bind_apply, Run.bind_apply, ← honce]
        rcases hx : Run.Expansion.once? (run (n + 1) calls) (.cons id head rest) env (s.deepen env)
          with ⟨e | (- | next), u⟩
        · rfl
        · -- it is a macro call
          exact absurd ((isCall_of_once? hx).2.symm.trans hcall) Bool.false_ne_true
        · rfl
    refine nested_congr rfl rfl (fun _ => rfl) ?_
    show (Run.Expansion.head (run rounds calls) env rounds (.cons id head rest) >>= _) _ =
      (Run.Expansion.head (run rounds calls) env rounds (.cons id' head rest') >>= _) _
    rw [Run.bind_apply, hhead, ← Run.bind_apply]

/-- A macro call of a head and a tail is refused. -/
theorem expand_of_tail_alone (hform : form.IsListOf [head] tail) (htail : tail.isList = false)
    (hcall : form.isCall (s.expander? env) = true) :
    run (rounds + 1) (calls + 1) (.expand form env) s =
      (.error (.fault ((s.depthFault? env).getD (.listExpected tail.print))), s) := by
  obtain ⟨id, rest, rfl, hrest⟩ := hform.exists_cons
  obtain rfl := hrest.eq_tail
  refine nested_of_fault rfl (fun _ => rfl) (Run.bind_apply_error (Run.bind_apply_error ?_))
  cases head with
  | symbol symbol =>
    obtain ⟨expander, hexpander⟩ := Option.isSome_iff_exists.mp hcall
    have hdeep : (s.deepen env).expander? env symbol = some expander := hexpander
    rw [Run.Expansion.once?, Run.bind_apply_ok (Run.read_apply _ _), hdeep, Value.listItems, htail]
    rfl
  | _ => cases hcall

/-- How two expansions end, of a list with a tail and of the one that has the tail as its last
element: they stop alike, or result in two such lists again, of so many elements in front of the
tail.  The stores are the same, but that the second list takes a number more. -/
inductive ExpandAlike (count : Nat) (tail : Value) :
    Except Stop Value × Store → Except Stop Value × Store → Prop
  | stop {e : Stop} {t : Store} : ExpandAlike count tail (.error e, t) (.error e, t)
  | lists {v w : Value} {items : List Value} {t : Store} {next : ObjectId} :
      items.length = count → v.IsListOf items tail → w.IsListOf (items ++ [tail]) .nil →
      ExpandAlike count tail (.ok v, { t with nextId := next }) (.ok w, t)

/-- The elements behind the kept ones are expanded alike, and the tail stands for itself. -/
theorem mapM_with_last {f : Value → Run Value} (hf : ∀ u, f tail u = (.ok tail, u)) (kept : Nat)
    (xs : List Value) (u : Store) :
    (∃ e t, (xs.drop kept).mapM f u = (.error e, t) ∧
      ((xs ++ [tail]).drop kept).mapM f u = (.error e, t)) ∨
    ∃ ys ys' t, (xs.drop kept).mapM f u = (.ok ys, t) ∧
      ((xs ++ [tail]).drop kept).mapM f u = (.ok ys', t) ∧
      (xs ++ [tail]).take kept ++ ys' = xs.take kept ++ ys ++ [tail] := by
  rcases Nat.lt_or_ge xs.length kept with hlt | hle
  · -- the tail is kept itself
    have hlast : (xs ++ [tail]).length ≤ kept := by
      rw [List.length_append, List.length_singleton]
      exact hlt
    rw [List.drop_of_length_le (Nat.le_of_lt hlt), List.drop_of_length_le hlast]
    refine .inr ⟨[], [], u, rfl, rfl, ?_⟩
    rw [List.take_of_length_le hlast, List.take_of_length_le (Nat.le_of_lt hlt), List.append_nil,
      List.append_nil]
  · rw [List.drop_append_of_le_length hle, List.take_append_of_le_length hle, List.mapM_append,
      Run.bind_apply]
    rcases (xs.drop kept).mapM f u with ⟨e | ys, t⟩
    · exact .inl ⟨e, t, rfl, rfl⟩
    · refine .inr ⟨ys, ys ++ [tail], t, rfl, ?_, (List.append_assoc ..).symm⟩
      have hlast : [tail].mapM f t = (.ok [tail], t) := by
        rw [List.mapM_cons, Run.bind_apply_ok (hf t)]
        rfl
      dsimp only
      rw [Run.bind_apply_ok hlast]
      rfl

theorem exists_listOnto (items : List Value) (htail : tail.isCons = false) (s : Store) :
    ∃ v next, v.IsListOf items tail ∧
      (liftM (Fresh.listOnto items tail) : Run Value) s = (.ok v, { s with nextId := next }) :=
  ⟨_, _, Value.chain_parts s.nextId items htail, rfl⟩

/-- The elements of a list that is no macro call are expanded alike. -/
theorem elements_of_last (hself : ∀ u, self (.expand tail env) u = (.ok tail, u))
    (hform : form.IsListOf items tail) (hproper : proper.IsListOf (items ++ [tail]) .nil)
    (htail : tail.isCons = false) :
    ExpandAlike items.length tail (Run.Expansion.elements self env form head s)
      (Run.Expansion.elements self env proper head s) := by
  rcases hkept : keptBehind head.symbol? with - | kept
  · -- all elements are kept, and so is the tail
    simp only [Run.Expansion.elements, hkept]
    show ExpandAlike _ _ (.ok form, { s with nextId := s.nextId }) (.ok proper, s)
    exact .lists rfl hform hproper
  · simp only [Run.Expansion.elements, hkept, hform.1, hproper.1, hform.2, hproper.2]
    -- the elements fail in both forms, or are expanded in both
    rcases mapM_with_last (f := fun item => self (.expand item env)) hself kept items s with
      ⟨e, t, hfirst, hsecond⟩ | ⟨ys, ys', t, hfirst, hsecond, hlist⟩
    · rw [Run.bind_apply_error hfirst, Run.bind_apply_error hsecond]
      exact .stop
    · rw [Run.bind_apply_ok hfirst, Run.bind_apply_ok hsecond, hlist]
      have hlength : (items.take kept ++ ys).length = items.length := by
        rw [List.length_append, Run.length_of_mapM hfirst, ← List.length_append,
          List.take_append_drop]
      obtain ⟨v, n, hv, hvlist⟩ := exists_listOnto (items.take kept ++ ys) htail t
      obtain ⟨w, n', hw, hwlist⟩ :=
        exists_listOnto (items.take kept ++ ys ++ [tail]) (rfl : Value.nil.isCons = false) t
      rw [hvlist, hwlist]
      exact .lists (t := { t with nextId := n' }) hlength hv hw

theorem ExpandAlike.riseIn {count : Nat} {p p' : Except Stop Value × Store}
    (h : ExpandAlike count tail p p') (realm : Nat) :
    ExpandAlike count tail (p.1, p.2.riseIn realm) (p'.1, p'.2.riseIn realm) := by
  cases h with
  | stop => exact .stop
  | @lists v w items t _ hlength hv hw =>
    exact .lists (t := t.riseIn realm) hlength hv hw

/-- A list that is no macro call is expanded as the one with its tail as last element is. -/
theorem expand_alike_of_last (hform : form.IsListOf (head :: args) tail)
    (hproper : proper.IsListOf (head :: (args ++ [tail])) .nil) (htail : tail.isCons = false)
    (hcall : form.isCall (s.expander? env) = false) :
    ExpandAlike (args.length + 1) tail (run rounds (calls + 2) (.expand form env) s)
      (run rounds (calls + 2) (.expand proper env) s) := by
  obtain ⟨id, rest, rfl, -⟩ := hform.exists_cons
  obtain ⟨id', rest', rfl, -⟩ := hproper.exists_cons
  have hbody : ExpandAlike (args.length + 1) tail
      (Run.Expansion.wholly (run rounds (calls + 1)) rounds (.cons id head rest) env (s.deepen env))
      (Run.Expansion.wholly (run rounds (calls + 1)) rounds (.cons id' head rest') env
        (s.deepen env)) := by
    -- neither form is a macro call, so only the elements are expanded
    cases rounds with
    | zero => exact .stop
    | succ n =>
      have hdeep (id : ObjectId) (rest : Value) :
          (Value.cons id head rest).isCall ((s.deepen env).expander? env) = false := hcall
      rw [wholly_of_isCall (hdeep id rest), wholly_of_isCall (hdeep id' rest')]
      exact elements_of_last (expand_atom htail) hform hproper htail
  simp only [run, perform, Call.nested, Call.nestsIn?]
  -- with room for a nested step, or both refused
  rcases s.depthFault? env with - | f
  · exact hbody.riseIn _
  · exact .stop

/-- The tail of a form is its last argument.

Behind an argument, the tail is evaluated as the last argument of a function or of a special form,
and it is given to the expander of a macro as the last argument.  A form that is no macro call has
the same tail when it is expanded, behind as many elements, which are those of the list that has the
tail as its last element.  A special form or a macro call without another argument is refused, and
nothing is changed; but a function is called as if there were no tail. -/
theorem tail_is_last_argument (hform : form.IsListOf (head :: args) tail)
    (hproper : proper.IsListOf (head :: (args ++ [tail])) .nil) (htail : tail.isList = false)
    (rounds calls : Nat) (env : FrameId) (s : Store) :
    let refusal := (s.depthFault? env).getD (.listExpected tail.print)
    (args ≠ [] → run rounds calls (.eval form env) s = run rounds calls (.eval proper env) s) ∧
    (args = [] → (Run.specialHead? head).isSome →
      run rounds (calls + 1) (.eval form env) s = (.error (.fault refusal), s)) ∧
    (args = [] → Run.specialHead? head = none → ∀ id, run rounds calls (.eval form env) s =
      run rounds calls (.eval (.cons id head .nil) env) s) ∧
    (form.isCall (s.expander? env) = true →
      (args ≠ [] → run rounds calls (.expand form env) s =
        run rounds calls (.expand proper env) s) ∧
      (args = [] → run (rounds + 1) (calls + 1) (.expand form env) s =
        (.error (.fault refusal), s))) ∧
    (form.isCall (s.expander? env) = false →
      ExpandAlike (args.length + 1) tail (run rounds (calls + 2) (.expand form env) s)
        (run rounds (calls + 2) (.expand proper env) s)) := by
  intro refusal
  have hcons : tail.isCons = false := by
    cases tail with
    | cons => cases htail
    | _ => rfl
  -- evaluated with arguments; a special form, and a call, of the tail alone; and expanded
  refine ⟨eval_of_last hform hproper htail, fun hargs hspecial => ?_, fun hargs hspecial => ?_,
    fun hcall => ⟨fun hargs => ?_, fun hargs => ?_⟩, expand_alike_of_last hform hproper hcons⟩
  · subst hargs
    obtain ⟨⟨f, name⟩, hf⟩ := Option.isSome_iff_exists.mp hspecial
    exact eval_of_special hform htail hf
  · subst hargs
    exact eval_of_tail_alone hform htail hspecial
  · -- a macro call, with arguments and without
    exact expand_of_last hform hproper htail hargs hcall
  · subst hargs
    exact expand_of_tail_alone hform htail hcall

/-- The list of an element and a tail is that of the two, however it is put. -/
theorem tail_is_last_argument_of_list :
    let list : Value := .function (.native ⟨0, "list", .atLeast 0, .list⟩)
    let tail : Value := .number 5.0
    let form : Value := .cons 1 list (.cons 2 .t tail)
    let proper : Value := .cons 3 list (.cons 4 .t (.cons 5 tail .nil))
    let s := ((Store.empty .empty).addRealm .preserve 9).2
    (form.IsListOf [list, .t] tail ∧ proper.IsListOf [list, .t, tail] .nil ∧
      tail.isList = false ∧ form.isCall (s.expander? 0) = false) ∧
    run 1 3 (.eval form 0) s =
      (.ok (.cons 1 .t (.cons 0 tail .nil)), { s with nextId := 2 }) ∧
    run 1 3 (.eval form 0) s = run 1 3 (.eval proper 0) s ∧
    ExpandAlike 2 tail (run 1 3 (.expand form 0) s) (run 1 3 (.expand proper 0) s) := by
  intro list tail form proper s
  have hform : form.IsListOf [list, .t] tail := ⟨rfl, rfl⟩
  have hproper : proper.IsListOf [list, .t, tail] .nil := ⟨rfl, rfl⟩
  have hcall : form.isCall (s.expander? 0) = false := rfl
  obtain ⟨heval, -⟩ := tail_is_last_argument hform hproper rfl 1 3 0 s
  obtain ⟨-, -, -, -, hexpand⟩ := tail_is_last_argument hform hproper rfl 1 1 0 s
  exact ⟨⟨hform, hproper, rfl, hcall⟩, rfl, heval (by decide), hexpand hcall⟩

/-- A function is called without the tail that stands alone behind it: the list of nothing but a
tail is empty.  The quotation of it is refused. -/
theorem call_without_tail :
    let list : Value := .function (.native ⟨0, "list", .atLeast 0, .list⟩)
    let quote : Value := .symbol ⟨0, 0, "quote", some (.form .quote)⟩
    let tail : Value := .number 5.0
    let s := ((Store.empty .empty).addRealm .preserve 9).2
    (tail.isList = false ∧ (Value.cons 1 list tail).IsListOf [list] tail) ∧
    run 1 3 (.expand (.cons 1 list tail) 0) s = (.ok (.cons 0 list tail), { s with nextId := 1 }) ∧
    run 1 3 (.eval (.cons 0 list tail) 0) { s with nextId := 1 } =
      (.ok .nil, { s with nextId := 1 }) ∧
    run 1 3 (.eval (.cons 0 list (.cons 1 tail .nil)) 0) { s with nextId := 2 } =
      (.ok (.cons 2 tail .nil), { s with nextId := 3 }) ∧
    run 1 3 (.eval (.cons 1 quote tail) 0) s = (.error (.fault (.listExpected tail.print)), s) :=
  ⟨⟨rfl, rfl, rfl⟩, rfl, rfl, rfl, eval_of_special ⟨rfl, rfl⟩ rfl rfl⟩

end PocketLisp
