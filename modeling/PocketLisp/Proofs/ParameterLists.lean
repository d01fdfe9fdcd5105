/-
PocketLisp/Proofs/ParameterLists.lean

The grammar of parameter lists, and what the three forms that make a closure of
one do with it.

`Value.Lists` says which values are parameter lists, and of which parameters:
proper lists of symbols, without a marker `&rest` or with the first marker in
front of the last symbol.  `Value.Misses` says what is wrong with any other
value.  Of every value one of both holds, and reading a parameter list finds
out which (`Parameters.ofValue_of_lists`, `Parameters.ofValue_of_misses`).

The marker is looked for once.  So the last symbol, which names the list of the
further arguments, may itself be a marker (`lambda_of_two_markers`); no other
list with two of them is accepted.

Main result: `closures_of_parameter_lists`.
-/
import Mathlib.Data.List.TakeDrop
import Mathlib.Data.List.TakeWhile
import PocketLisp.Proofs.SpecialForms

namespace PocketLisp

/-! ### The grammar -/

namespace Value

/-- A value that lists these parameters. -/
inductive Lists (list : Value) : Parameters → Prop
  | positional {names : List Symbol} : list.cars = names.map .symbol → list.finalTail = .nil →
    (∀ s ∈ names, s.is .rest = false) → Lists list ⟨names, none⟩
  | rest {names : List Symbol} {marker name : Symbol} :
    list.cars = (names ++ [marker, name]).map .symbol → list.finalTail = .nil →
    (∀ s ∈ names, s.is .rest = false) → marker.is .rest = true → Lists list ⟨names, some name⟩

/-- A value that lists no parameters, and the fault that says why. -/
inductive Misses (list : Value) : Fault → Prop
  | list : list.isList = false → Misses list (.listExpected list.print)
  | symbol {names : List Symbol} {v : Value} {after : List Value} :
    list.cars = names.map .symbol ++ v :: after → (∀ s, v ≠ .symbol s) →
    Misses list (.symbolExpected v.print)
  | tail {names : List Symbol} : list.isList = true → list.cars = names.map .symbol →
    list.finalTail ≠ .nil →
    Misses list (.invalidParameters ("dotted parameter list " ++ list.print))
  | marker {names : List Symbol} {marker : Symbol} {after : List Symbol} :
    list.cars = (names ++ marker :: after).map .symbol → list.finalTail = .nil →
    (∀ s ∈ names, s.is .rest = false) → marker.is .rest = true → after.length ≠ 1 →
    Misses list (.invalidParameters
      ("&rest must be followed by exactly one name in " ++ list.print))

variable {list : Value}

theorem isList_of_finalTail (h : list.finalTail = .nil) : list.isList = true := by
  cases list with
  | nil | cons _ _ _ => rfl
  | _ => cases h

theorem isList_of_cars (h : list.cars ≠ []) : list.isList = true := by
  cases list with
  | cons _ _ _ => rfl
  | _ => exact absurd rfl h

/-- Values are all symbols, or there is a first one that is none. -/
theorem names_or (vs : List Value) : (∃ names : List Symbol, vs = names.map .symbol) ∨
    ∃ (names : List Symbol) (v : Value) (after : List Value),
      vs = names.map .symbol ++ v :: after ∧ ∀ s, v ≠ .symbol s := by
  induction vs with
  | nil => exact .inl ⟨[], rfl⟩
  | cons v vs ih =>
    cases v with
    | symbol s =>
      rcases ih with ⟨names, rfl⟩ | ⟨names, w, after, rfl, hw⟩
      · exact .inl ⟨s :: names, rfl⟩
      · exact .inr ⟨s :: names, w, after, rfl, hw⟩
    | _ => exact .inr ⟨[], _, vs, rfl, nofun⟩

/-- Symbols are no markers, or there is a first one that is. -/
theorem marker_or (names : List Symbol) : (∀ s ∈ names, s.is .rest = false) ∨
    ∃ (before : List Symbol) (marker : Symbol) (after : List Symbol),
      names = before ++ marker :: after ∧ (∀ s ∈ before, s.is .rest = false) ∧
        marker.is .rest = true := by
  induction names with
  | nil => exact .inl nofun
  | cons s names ih =>
    rcases hs : s.is .rest
    · rcases ih with hnames | ⟨before, marker, after, rfl, hbefore, hmarker⟩
      · exact .inl (List.forall_mem_cons.mpr ⟨hs, hnames⟩)
      · have hplain : ∀ r ∈ s :: before, r.is .rest = false :=
          List.forall_mem_cons.mpr ⟨hs, hbefore⟩
        exact .inr ⟨s :: before, marker, after, rfl, hplain, hmarker⟩
    · exact .inr ⟨[], s, names, rfl, nofun, hs⟩

/-- Every value lists parameters or misses to. -/
theorem lists_or_misses (list : Value) : (∃ p, list.Lists p) ∨ ∃ f, list.Misses f := by
  rcases hlist : list.isList
  · exact .inr ⟨_, .list hlist⟩
  rcases names_or list.cars with ⟨names, hnames⟩ | ⟨names, v, after, hcars, hv⟩
  · by_cases htail : list.finalTail = .nil
    · rcases marker_or names with hplain | ⟨before, marker, after, rfl, hbefore, hmarker⟩
      · exact .inl ⟨_, .positional hnames htail hplain⟩
      · by_cases hafter : after.length = 1
        · obtain ⟨name, rfl⟩ := List.length_eq_one_iff.mp hafter
          exact .inl ⟨_, .rest hnames htail hbefore hmarker⟩
        · exact .inr ⟨_, .marker hnames htail hbefore hmarker hafter⟩
    · exact .inr ⟨_, .tail hlist hnames htail⟩
  · exact .inr ⟨_, .symbol hcars hv⟩

end Value

/-! ### Reading a parameter list -/

namespace Parameters

variable {list : Value} {p : Parameters} {f : Fault}

theorem symbols_of_names {names : List Symbol} (h : list.cars = names.map .symbol) :
    symbols list = .ok (names, list.finalTail) := by
  induction list generalizing names with
  | cons id a d _ ih =>
    obtain ⟨s, names, rfl⟩ : ∃ s ss, names = s :: ss := by
      cases names with
      | nil => cases h
      | cons s ss => exact ⟨s, ss, rfl⟩
    obtain ⟨rfl, hd⟩ := List.cons.inj h
    rw [symbols, ih hd]
    rfl
  | _ =>
    obtain rfl := List.map_eq_nil_iff.mp h.symm
    rfl

theorem symbols_of_other {names : List Symbol} {v : Value} {after : List Value}
    (h : list.cars = names.map .symbol ++ v :: after) (hv : ∀ s, v ≠ .symbol s) :
    symbols list = .error (.symbolExpected v.print) := by
  induction list generalizing names with
  | cons id a d _ ih =>
    -- the first element that is no symbol is the one named
    cases names with
    | nil =>
      obtain ⟨rfl, -⟩ := List.cons.inj h
      rw [symbols]
      cases a with
      | symbol s => exact absurd rfl (hv s)
      | _ => rfl
    | cons s names =>
      obtain ⟨rfl, hd⟩ := List.cons.inj h
      rw [symbols, ih hd]
      rfl
  | _ => cases names <;> cases h

/-- Names up to the first marker. -/
theorem span_of_marker {names : List Symbol} (h : ∀ s ∈ names, s.is .rest = false) {marker : Symbol}
    (hmarker : marker.is .rest = true) (after : List Symbol) :
    (names ++ marker :: after).span (fun s => !s.is .rest) = (names, marker :: after) := by
  have hnames : ∀ s ∈ names, (!s.is .rest) = true := fun s hs => by rw [h s hs]; rfl
  rw [List.span_eq_takeWhile_dropWhile, List.takeWhile_append_of_pos hnames,
    List.dropWhile_append_of_pos hnames]
  simp [hmarker]

theorem span_of_plain {names : List Symbol} (h : ∀ s ∈ names, s.is .rest = false) :
    names.span (fun s => !s.is .rest) = (names, []) := by
  have hnames : ∀ s ∈ names, (!s.is .rest) = true := fun s hs => by rw [h s hs]; rfl
  rw [List.span_eq_takeWhile_dropWhile, List.takeWhile_eq_self_iff.mpr hnames,
    List.dropWhile_eq_nil_iff.mpr hnames]

/-- What is left to be found out of a proper list of symbols. -/
theorem ofValue_of_names {names : List Symbol} (h : list.cars = names.map .symbol)
    (htail : list.finalTail = .nil) :
    ofValue list = match names.span fun s => !s.is .rest with
      | (positional, []) => .ok ⟨positional, none⟩
      | (positional, [_, name]) => .ok ⟨positional, some name⟩
      | _ => .error (.invalidParameters
          ("&rest must be followed by exactly one name in " ++ list.print)) := by
  rw [ofValue, Value.isList_of_finalTail htail, symbols_of_names h, htail]
  rfl

theorem ofValue_of_lists (h : list.Lists p) : ofValue list = .ok p := by
  cases h with
  | positional hcars htail hnames => rw [ofValue_of_names hcars htail, span_of_plain hnames]
  | rest hcars htail hnames hmarker =>
    rw [ofValue_of_names hcars htail, span_of_marker hnames hmarker]

theorem ofValue_of_misses (h : list.Misses f) : ofValue list = .error f := by
  -- the faults in the order in which the list is checked
  cases h with
  | list hlist =>
    rw [ofValue, hlist]
    rfl
  | symbol hcars hv =>
    have hlist : list.isList = true := Value.isList_of_cars (by simp [hcars])
    rw [ofValue, hlist, symbols_of_other hcars hv]
    rfl
  | tail hlist hcars htail =>
    rw [ofValue, hlist, symbols_of_names hcars]
    cases hfinal : list.finalTail with
    | nil => exact absurd hfinal htail
    | _ => rfl
  | @marker names marker after hcars htail hnames hmarker hafter =>
    rw [ofValue_of_names hcars htail, span_of_marker hnames hmarker]
    match after, hafter with
    | [], _ | _ :: _ :: _, _ => rfl

/-- What lists parameters does not miss to. -/
theorem not_misses_of_lists (h : list.Lists p) : ¬ list.Misses f := fun hf => by
  have hok := ofValue_of_lists h
  rw [ofValue_of_misses hf] at hok
  cases hok

end Parameters

/-! ### The forms that make closures -/

variable {list form : Value} {forms : List Value} {p : Parameters} {f : Fault} {name : Symbol}
  {env g : FrameId} {s : Store}

/-- The same is blind in two cases that are told apart without the nesting. -/
theorem Store.Blind.ite {α : Type} {c : Store → Bool} {m m' : Store → α × Store}
    (hc : Store.Unseen c) (hm : Store.Blind m) (hm' : Store.Blind m') :
    Store.Blind fun s => if c s then m s else m' s where
  result {s t} hst := by
    rw [hc s t hst, apply_ite Prod.fst, apply_ite Prod.fst, hm.result hst, hm'.result hst]
  alike {s t} hst := by
    rw [hc s t hst]
    split
    · exact hm.alike hst
    · exact hm'.alike hst
  level s := by
    split
    · exact hm.level s
    · exact hm'.level s

namespace Run

theorem makeClosure_of_lists (h : list.Lists p) (name : Option Symbol) (forms : List Value)
    (env : FrameId) (s : Store) : makeClosure name list forms env s =
      (.ok ⟨s.closures.size, name⟩, (s.addClosure ⟨name, p, forms, env⟩).2) := by
  rw [makeClosure, Parameters.ofValue_of_lists h]
  rfl

theorem makeClosure_of_misses (h : list.Misses f) (name : Option Symbol) (forms : List Value)
    (env : FrameId) (s : Store) : makeClosure name list forms env s = (.error (.fault f), s) := by
  rw [makeClosure, Parameters.ofValue_of_misses h]
  rfl

end Run

/-- The store with the closure that a parameter list and a body make. -/
def Store.withClosure (s : Store) (name : Option Symbol) (p : Parameters) (forms : List Value)
    (env : FrameId) : Store := (s.addClosure ⟨name, p, forms, env⟩).2

theorem lambda_of_lists (hform : form.IsForm .lambda (list :: forms)) (hlist : list.Lists p)
    (hroom : s.depthFault? env = none) (rounds calls : Nat) :
    run rounds (calls + 1) (.eval form env) s =
      (.ok (.function (.closure ⟨s.closures.size, none⟩)), s.withClosure none p forms env) := by
  refine hform.run_eq_of_blind hroom
    (m := fun s => (.ok (.function (.closure ⟨s.closures.size, none⟩)),
      s.withClosure none p forms env))
    (Store.blind_of_realms fun _ _ => rfl) (fun self rounds head u => ?_) rounds calls
  exact Run.bind_apply_ok (Run.makeClosure_of_lists hlist none forms env u)

/-- A function is made, and then defined unless its name is a constant. -/
theorem defun_of_lists {first : Value}
    (hform : form.IsForm .defun (.symbol name :: list :: first :: forms)) (hlist : list.Lists p)
    (hroom : s.depthFault? env = none) (rounds calls : Nat) :
    run rounds (calls + 1) (.eval form env) s =
      if s.isConstant env name then
        (.error (.fault (.constantViolation name.name)),
          s.withClosure (some name) p (first :: forms) env)
      else
        let c : Value := .function (.closure ⟨s.closures.size, some name⟩)
        (.ok c, (s.withClosure (some name) p (first :: forms) env).bindAt env name c) := by
  have hconstant : Store.Blind fun s => ((.error (.fault (.constantViolation name.name)),
      s.withClosure (some name) p (first :: forms) env) : Except Stop Value × Store) :=
    Store.blind_of_realms fun _ _ => rfl
  have hfree : Store.Blind fun s =>
      let c : Value := .function (.closure ⟨s.closures.size, some name⟩)
      ((.ok c, (s.withClosure (some name) p (first :: forms) env).bindAt env name c) :
        Except Stop Value × Store) :=
    Store.blind_of_realms fun _ _ => rfl
  refine hform.run_eq_of_blind hroom (.ite (Store.unseen_isConstant env name) hconstant hfree)
    (fun self rounds head u => ?_) rounds calls
  have hmade := Run.makeClosure_of_lists hlist (some name) (first :: forms) env u
  refine (Run.bind_apply_ok hmade).trans ?_
  have hsame : (u.addClosure ⟨some name, p, first :: forms, env⟩).2.isConstant env name =
      u.isConstant env name := rfl
  -- the closure is made before the name is found constant
  rw [Run.bind_apply, Run.define_apply, hsame]
  cases u.isConstant env name <;> rfl

theorem defmacro_of_lists {head : Symbol} (hhead : head.is .macroDef = true) (hlist : list.Lists p)
    (self : Recur) :
    Run.Parsing.codeList self (.symbol head :: .symbol name :: list :: forms) g s =
      (.ok .t, (s.withClosure (some name) p forms g).bindExpander g name s.closures.size) := by
  rw [Run.Parsing.codeList, hhead]
  exact Run.bind_apply_ok (Run.makeClosure_of_lists hlist (some name) forms g s)

theorem lambda_of_misses (hform : form.IsForm .lambda (list :: forms)) (hlist : list.Misses f)
    (hroom : s.depthFault? env = none) (rounds calls : Nat) :
    run rounds (calls + 1) (.eval form env) s = (.error (.fault f), s) := by
  refine hform.run_eq_of_blind hroom (m := fun s => (.error (.fault f), s))
    (Store.blind_of_realms fun _ _ => rfl) (fun self rounds head u => ?_) rounds calls
  exact Run.bind_apply_error (Run.makeClosure_of_misses hlist none forms env u)

theorem defun_of_misses {first : Value}
    (hform : form.IsForm .defun (.symbol name :: list :: first :: forms)) (hlist : list.Misses f)
    (hroom : s.depthFault? env = none) (rounds calls : Nat) :
    run rounds (calls + 1) (.eval form env) s = (.error (.fault f), s) := by
  refine hform.run_eq_of_blind hroom (m := fun s => (.error (.fault f), s))
    (Store.blind_of_realms fun _ _ => rfl) (fun self rounds head u => ?_) rounds calls
  have hmade := Run.makeClosure_of_misses hlist (some name) (first :: forms) env u
  exact (Run.bind_apply_ok (Run.pure_apply name u)).trans (Run.bind_apply_error hmade)

theorem defmacro_of_misses {head : Symbol} (hhead : head.is .macroDef = true)
    (hlist : list.Misses f) (self : Recur) :
    Run.Parsing.codeList self (.symbol head :: .symbol name :: list :: forms) g s =
      (.error (.fault f), s) := by
  rw [Run.Parsing.codeList, hhead]
  have hmade := Run.makeClosure_of_misses hlist (some name) forms g s
  exact (Run.bind_apply_ok (Run.pure_apply name s)).trans (Run.bind_apply_error hmade)

/-- What `lambda`, `defun` and `defmacro` do with any value in the place of the parameter list.

Where the value lists parameters, each makes a closure with just these, of its body and in its
frame, which is defined under its name by `defun`, unless that is a constant, and expands the
calls with its name from `defmacro` on.  Where it does not, each fails with the fault that says
why, and changes nothing. -/
theorem closures_of_parameter_lists (rounds calls : Nat) (self : Recur) {s : Store}
    {env : FrameId} (hroom : s.depthFault? env = none) (g : FrameId)
    {list lambdaForm defunForm first : Value} {lambdaBody defunBody : List Value}
    {name head : Symbol} (macroBody : List Value)
    (hlambda : lambdaForm.IsForm .lambda (list :: lambdaBody))
    (hdefun : defunForm.IsForm .defun (.symbol name :: list :: first :: defunBody))
    (hhead : head.is .macroDef = true) :
    (∀ p, list.Lists p →
      let made (name : Option Symbol) : Value := .function (.closure ⟨s.closures.size, name⟩)
      let t := s.withClosure (some name) p (first :: defunBody) env
      run rounds (calls + 1) (.eval lambdaForm env) s =
        (.ok (made none), s.withClosure none p lambdaBody env) ∧
      (s.isConstant env name = false → run rounds (calls + 1) (.eval defunForm env) s =
        (.ok (made (some name)), t.bindAt env name (made (some name)))) ∧
      (s.isConstant env name = true → run rounds (calls + 1) (.eval defunForm env) s =
        (.error (.fault (.constantViolation name.name)), t)) ∧
      Run.Parsing.codeList self (.symbol head :: .symbol name :: list :: macroBody) g s =
        (.ok .t, (s.withClosure (some name) p macroBody g).bindExpander g name s.closures.size)) ∧
    (∀ f, list.Misses f →
      run rounds (calls + 1) (.eval lambdaForm env) s = (.error (.fault f), s) ∧
      run rounds (calls + 1) (.eval defunForm env) s = (.error (.fault f), s) ∧
      Run.Parsing.codeList self (.symbol head :: .symbol name :: list :: macroBody) g s =
        (.error (.fault f), s)) ∧
    ((∃ p, list.Lists p) ↔ ¬ ∃ f, list.Misses f) := by
  refine ⟨fun p hp => ?_, fun f hf => ?_, ?_⟩
  · -- the definition form alone can still fail, for a constant name
    have hdefined := defun_of_lists hdefun hp hroom rounds calls
    refine ⟨lambda_of_lists hlambda hp hroom rounds calls, fun hc => ?_, fun hc => ?_,
      defmacro_of_lists hhead hp self⟩
    all_goals
      rw [hdefined, hc]
      rfl
  · exact ⟨lambda_of_misses hlambda hf hroom rounds calls,
      defun_of_misses hdefun hf hroom rounds calls, defmacro_of_misses hhead hf self⟩
  · constructor
    · rintro ⟨p, hp⟩ ⟨f, hf⟩
      exact Parameters.not_misses_of_lists hp hf
    · exact (Value.lists_or_misses list).resolve_right

/-- A function with a parameter and one for the further arguments, and a list that is dotted. -/
theorem closures_of_parameter_lists_of_rest :
    let a : Symbol := ⟨0, 0, "a", none⟩
    let rest : Symbol := ⟨1, 0, "&rest", some .rest⟩
    let b : Symbol := ⟨2, 0, "b", none⟩
    let lambda : Symbol := ⟨3, 0, "lambda", some (.form .lambda)⟩
    let defun : Symbol := ⟨4, 0, "defun", some (.form .defun)⟩
    let defmacro : Symbol := ⟨5, 0, "defmacro", some .macroDef⟩
    let self : Recur := fun _ _ => Run.unfinished
    let listed (items : List Value) : Value := items.foldr (.cons 0) .nil
    let list := listed [.symbol a, .symbol rest, .symbol b]
    let dotted : Value := .cons 0 (.symbol a) (.symbol b)
    let s := ((Store.empty .empty).addRealm .preserve 1).2
    s.depthFault? 0 = none ∧
    (run 0 1 (.eval (listed [.symbol lambda, list, .symbol a]) 0) s =
        (.ok (.function (.closure ⟨0, none⟩)), s.withClosure none ⟨[a], some b⟩ [.symbol a] 0) ∧
      Run.Parsing.codeList self [.symbol defmacro, .symbol a, list] 0 s =
        (.ok .t, (s.withClosure (some a) ⟨[a], some b⟩ [] 0).bindExpander 0 a 0)) ∧
    run 0 1 (.eval (listed [.symbol defun, .symbol a, dotted, .t]) 0) s =
      (.error (.fault (.invalidParameters ("dotted parameter list " ++ dotted.print))), s) := by
  intro a rest b lambda defun defmacro self listed list dotted s
  have hroom : s.depthFault? 0 = none := by decide
  have hlists : list.Lists ⟨[a], some b⟩ :=
    .rest (show list.cars = ([a] ++ [rest, b]).map .symbol from rfl) rfl (by decide) rfl
  have hdotted : dotted.Misses (.invalidParameters ("dotted parameter list " ++ dotted.print)) :=
    .tail rfl (show dotted.cars = [a].map .symbol from rfl) nofun
  have hlambda (list : Value) : (listed [.symbol lambda, list, .symbol a]).IsForm .lambda
      [list, .symbol a] := ⟨0, lambda, _, rfl, rfl, rfl⟩
  have hdefun (list : Value) : (listed [.symbol defun, .symbol a, list, .t]).IsForm .defun
      [.symbol a, list, .t] := ⟨0, defun, _, rfl, rfl, rfl⟩
  have hhead : defmacro.is .macroDef = true := rfl
  have haccepted := (closures_of_parameter_lists 0 0 self hroom 0 [] (hlambda list) (hdefun list)
    hhead).1 _ hlists
  have hrefused := (closures_of_parameter_lists 0 0 self hroom 0 [] (hlambda dotted)
    (hdefun dotted) hhead).2.1 _ hdotted
  exact ⟨hroom, ⟨haccepted.1, haccepted.2.2.2⟩, hrefused.2.1⟩

/-- A list in which the marker occurs twice, and not only in front of the last symbol, is a
parameter list all the same. -/
theorem lambda_of_two_markers :
    let rest : Symbol := ⟨0, 0, "&rest", some .rest⟩
    let lambda : Symbol := ⟨1, 0, "lambda", some (.form .lambda)⟩
    let listed (items : List Value) : Value := items.foldr (.cons 0) .nil
    let list := listed [.symbol rest, .symbol rest]
    let s := ((Store.empty .empty).addRealm .preserve 1).2
    rest.is .rest = true ∧
      run 0 1 (.eval (listed [.symbol lambda, list, .t]) 0) s =
        (.ok (.function (.closure ⟨0, none⟩)), s.withClosure none ⟨[], some rest⟩ [.t] 0) := by
  intro rest lambda listed list s
  refine ⟨rfl, lambda_of_lists ⟨0, lambda, _, rfl, rfl, rfl⟩ ?_ (by decide) 0 0⟩
  exact .rest (show list.cars = ([] ++ [rest, rest]).map .symbol from rfl) rfl nofun rfl

end PocketLisp
