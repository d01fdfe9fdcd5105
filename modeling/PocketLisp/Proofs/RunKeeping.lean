/-
PocketLisp/Proofs/RunKeeping.lean

The interpreter keeps every invariant of the heap.

If the calls that an activity makes keep an invariant, so does the activity
(`perform_keeps`); hence the interpreter does, by induction on the calls that
may be active at the same time (`run_keeps`).  A new frame extends a frame in
use, and what is bound, assigned, captured or called is in use, because it was
found in a frame in use or was made of such values.
-/
import PocketLisp.Engine
import PocketLisp.Proofs.Keeping

namespace PocketLisp

open Invariant

variable {I : Invariant} {s t : Store}

namespace Invariant.Keeps

/-! ### Names -/

theorem intern (env : FrameId) (name : String) :
    I.Keeps s (Run.intern env name) fun _ _ => True :=
  aside (.intern s env name) rfl rfl trivial

theorem generateSymbol (env : FrameId) :
    I.Keeps s (Run.update fun s => s.generateSymbol env) fun _ _ => True :=
  aside (.generateSymbol s env) rfl rfl trivial

theorem chain_inUse (hs : I.Holds s) {env : FrameId} (henv : I.frame s env) :
    ∀ i ∈ s.chain env, I.frame s i :=
  Store.forall_chain (P := I.frame s) (I.outer hs.heap) henv

theorem global {env : FrameId} (henv : I.frame s env) :
    I.Keeps s (Run.global env) I.frame :=
  Keeps.read fun hs => Store.global_of (P := I.frame s) (I.outer hs.heap) henv

/-- What a symbol is bound to in a chain is in use. -/
theorem get {env : FrameId} (henv : I.frame s env) (symbol : Symbol) :
    I.Keeps s (Run.get env symbol) I.InUse := by
  refine (Keeps.read (Q := fun t x => ∀ v, x = .ok v → I.InUse t v) fun hs v hv => ?_).bind
    fun t x _ hx => Keeps.ofExcept fun v hv _ => hx v hv
  unfold Store.valueOf at hv
  rcases hlookup : s.lookup? env symbol with - | w <;> rw [hlookup] at hv <;> cases hv
  obtain ⟨i, hi, hbound⟩ := List.exists_of_findSome?_eq_some hlookup
  exact I.bound hs.heap (chain_inUse hs henv i hi) hbound

theorem expander? {env : FrameId} (henv : I.frame s env) (symbol : Symbol) :
    I.Keeps s (Run.read fun s => s.expander? env symbol) fun t x =>
      ∀ c, x = some c → I.closure t c := by
  refine Keeps.read fun hs c hc => ?_
  obtain ⟨i, hi, hget⟩ := List.exists_of_findSome?_eq_some hc
  exact I.expander hs.heap (chain_inUse hs henv i hi) hget

theorem bindAt {i : FrameId} (hi : I.frame s i) {symbol : Symbol} {v : Value}
    (hv : I.InUse s v) (hsymbol : s.isConstant i symbol = false) :
    I.Keeps s (Run.change fun s => s.bindAt i symbol v) fun _ _ => True :=
  Keeps.change fun hs =>
    have hlarger : s.Larger (s.bindAt i symbol v) :=
      ⟨Nat.le_of_eq (Store.size_bindAt ..).symm, Nat.le_refl _⟩
    ⟨hs.of_heap (I.bindAt hs.heap hi hsymbol hv) hlarger rfl rfl, hlarger, trivial⟩

/-- Only a frame in use is found as a place, and only where the symbol is no constant. -/
theorem bindIn {place : Store → Except Fault FrameId} {symbol : Symbol} {v : Value}
    (hv : I.InUse s v)
    (hplace : ∀ i, I.Holds s → place s = .ok i → I.frame s i ∧ s.isConstant i symbol = false) :
    I.Keeps s (Run.read place >>= fun x => Run.ofExcept x >>= fun i =>
      Run.change fun s => s.bindAt i symbol v) fun _ _ => True := by
  intro hs
  rw [Run.bind_apply, Run.read_apply]
  rcases hx : place s with f | i
  · exact (Keeps.throw _ : I.Keeps s (Run.fault f) _) hs
  · obtain ⟨hi, hsymbol⟩ := hplace i hs hx
    exact bindAt hi hv hsymbol hs

theorem define {env : FrameId} (henv : I.frame s env) (symbol : Symbol) {v : Value}
    (hv : I.InUse s v) : I.Keeps s (Run.define env symbol v) fun _ _ => True := by
  refine bindIn hv fun i hs hi => ?_
  unfold Store.definePlace at hi
  split at hi
  · cases hi
  · next hconstant =>
    cases hi
    exact ⟨henv, Bool.eq_false_iff.mpr hconstant⟩

/-- The frame in which a symbol is assigned is of the same realm, so it has the same constants. -/
theorem assign {env : FrameId} (henv : I.frame s env) (symbol : Symbol) {v : Value}
    (hv : I.InUse s v) : I.Keeps s (Run.assign env symbol v) fun _ _ => True := by
  refine bindIn hv fun i hs hi => ?_
  unfold Store.assignPlace at hi
  split at hi
  · cases hi
  · next hconstant =>
    rcases hbinder : s.binder? env symbol with - | j <;> rw [hbinder] at hi <;> cases hi
    have hmem := List.mem_of_find?_eq_some hbinder
    -- the constants were looked up from the caller's frame, not from the one that is changed
    have hrealm := (I.sound hs.heap).realm_chain i hmem
    refine ⟨chain_inUse hs henv i hmem, ?_⟩
    rw [Store.isConstant, Store.realm, hrealm]
    exact Bool.eq_false_iff.mpr hconstant

/-! ### Closures -/

/-- A new closure is in use. -/
theorem makeClosure {env : FrameId} (henv : I.frame s env) (name : Option Symbol)
    (params : Value) {forms : List Value} (hforms : I.AllInUse s forms) :
    I.Keeps s (Run.makeClosure name params forms env) fun t c => I.closure t c.index := by
  refine (Keeps.ofExcept (Q := fun _ _ => True) fun _ _ _ => trivial).bind fun t ps ht _ => ?_
  refine (Keeps.update (Q := I.closure) fun ht' => ?_).bind fun u index _ hindex =>
    Keeps.pure fun _ => hindex
  obtain ⟨hheap, hnew⟩ := I.addClosure (c := ⟨name, ps, forms, env⟩) ht'.heap
    (I.frame_mono henv ht) (allInUse_mono hforms ht)
  have hlarger : t.Larger (t.addClosure ⟨name, ps, forms, env⟩).2 :=
    ⟨Nat.le_refl _, by rw [Store.size_addClosure]; exact Nat.le_succ _⟩
  exact ⟨ht'.of_heap hheap hlarger rfl rfl, hlarger, hnew⟩

/-- A new frame is in use. -/
theorem extend {env : FrameId} (henv : I.frame s env) :
    I.Keeps s (Run.update fun s => s.extend env) I.frame :=
  Keeps.update fun hs =>
    have ⟨hheap, hnew⟩ := I.extend hs.heap henv
    have hlarger : s.Larger (s.extend env).2 :=
      ⟨by rw [Store.size_extend]; exact Nat.le_succ _, Nat.le_refl _⟩
    ⟨hs.of_heap hheap hlarger rfl rfl, hlarger, hnew⟩

theorem bindAll {env : FrameId} (henv : I.frame s env) (names : List Symbol)
    {args : List Value} (hargs : I.AllInUse s args) :
    I.Keeps s (Run.bindAll env names args) fun _ _ => True := by
  induction names generalizing s args with
  | nil => exact Keeps.pure fun _ => trivial
  | cons name names ih =>
    cases args with
    | nil => exact Keeps.pure fun _ => trivial
    | cons v vs =>
      obtain ⟨hv, hvs⟩ := List.forall_mem_cons.mp hargs
      refine (define henv name hv).bind fun t _ ht _ => ?_
      exact ih (I.frame_mono henv ht) (allInUse_mono hvs ht)

section Activities

variable {self : Recur} (h : RecurKeeps I self)
include h

theorem eval {env : FrameId} {form : Value} (hform : I.InUse s form)
    (henv : I.frame s env) : I.Keeps s (self (.eval form env)) I.InUse :=
  h (.eval form env) s ⟨hform, henv⟩

theorem body {env : FrameId} (henv : I.frame s env) {forms : List Value}
    (hforms : I.AllInUse s forms) : I.Keeps s (Run.body self forms env) I.InUse :=
  Keeps.foldlM forms Value.over_nil fun _ _ ht _ form hmem =>
    eval h (inUse_mono (hforms form hmem) ht) (I.frame_mono henv ht)

/-- A closure in use is called with its own frame and body, which are in use. -/
theorem callClosure {index : Nat} (hindex : I.closure s index) {args : List Value}
    (hargs : I.AllInUse s args) : I.Keeps s (Run.callClosure self index args) I.InUse := by
  refine (Keeps.read (Q := fun t c => I.frame t c.env ∧ I.AllInUse t c.body) fun hs =>
    ⟨I.env hs.heap hindex, fun v hv => I.body hs.heap hindex hv⟩).bind
      fun t c ht ⟨hcenv, hcbody⟩ => ?_
  cases c.params.fault? c.displayName args.length with
  | some f => exact Keeps.throw _
  | none =>
    refine (extend hcenv).bind fun u env hu henv => ?_
    have hargs := allInUse_mono hargs (ht.trans hu)
    have hcbody := allInUse_mono hcbody hu
    refine (bindAll henv c.params.positional hargs).bind fun w _ hw _ => ?_
    -- the body is evaluated in whatever larger store binding the last parameter leaves
    have hbody : ∀ x, w.Larger x → I.Keeps x (Run.body self c.body env) I.InUse := fun x hx =>
      body h (I.frame_mono henv (hw.trans hx)) (allInUse_mono hcbody (hw.trans hx))
    cases c.params.rest with
    | none =>
      have hunit : I.Keeps w (pure () : Run Unit) fun _ _ => True := Keeps.pure fun _ => trivial
      exact hunit.bind fun x _ hx _ => hbody x hx
    | some name =>
      have hrest : ∀ v ∈ args.drop c.params.positional.length, v.Over (I.closure w) :=
        fun v hv => allInUse_mono hargs hw v (List.mem_of_mem_drop hv)
      refine (ofFreshValue (Fresh.Yields.list hrest)).bind fun x v hx hv => ?_
      refine (define (I.frame_mono henv (hw.trans hx)) name hv).bind fun y _ hy _ => ?_
      exact hbody y (hx.trans hy)

/-! ### Evaluation -/

theorem whileTrue {condition : Value} (hcondition : I.InUse s condition)
    {forms : List Value} (hforms : I.AllInUse s forms) {env : FrameId}
    (henv : I.frame s env) (rounds : Nat) :
    I.Keeps s (Run.whileTrue self condition forms env rounds) I.InUse := by
  induction rounds generalizing s with
  | zero => exact Keeps.throw _
  | succ rounds ih =>
    refine (eval h hcondition henv).bind fun t v ht _ => ?_
    cases v.isTrue with
    | false => exact Keeps.pure fun _ => Value.over_nil
    | true =>
      refine (body h (I.frame_mono henv ht) (allInUse_mono hforms ht)).bind fun u _ hu _ => ?_
      have hsu := ht.trans hu
      exact ih (inUse_mono hcondition hsu) (allInUse_mono hforms hsu) (I.frame_mono henv hsu)

theorem specialForm (rounds : Nat) (form : SpecialForm) (head : String)
    {args : List Value} (hargs : I.AllInUse s args) {env : FrameId}
    (henv : I.frame s env) :
    I.Keeps s (Run.specialForm self rounds form head args env) I.InUse := by
  have hsymbol : ∀ target : Value,
      I.Keeps s (Run.ofExcept target.expectSymbol) fun _ _ => True :=
    fun _ => Keeps.ofExcept fun _ _ _ => trivial
  -- with a wrong number of arguments a special form is refused at once
  cases form with
  | quote =>
    -- the result is the argument as it stands
    match args with
    | [v] => exact Keeps.pure fun _ => hargs v List.mem_cons_self
    | [] | _ :: _ :: _ => exact Keeps.throw _
  | ifThenElse =>
    -- the condition has added to the store when one of the branches is evaluated
    match args with
    | [condition, yes, no] =>
      obtain ⟨hcondition, hargs⟩ := List.forall_mem_cons.mp hargs
      obtain ⟨hyes, hargs⟩ := List.forall_mem_cons.mp hargs
      obtain ⟨hno, -⟩ := List.forall_mem_cons.mp hargs
      refine (eval h hcondition henv).bind fun t v ht _ => ?_
      cases v.isTrue with
      | true => exact eval h (inUse_mono hyes ht) (I.frame_mono henv ht)
      | false => exact eval h (inUse_mono hno ht) (I.frame_mono henv ht)
    | [] | [_] | [_, _] | _ :: _ :: _ :: _ :: _ => exact Keeps.throw _
  | progn => exact body h henv hargs
  | define =>
    -- what is bound is the result of the form, and so is what the definition results in
    match args with
    | [target, form] =>
      have hform : I.InUse s form := hargs form (List.mem_cons_of_mem _ List.mem_cons_self)
      refine (hsymbol target).bind fun t symbol ht _ => ?_
      refine (eval h (inUse_mono hform ht) (I.frame_mono henv ht)).bind fun u v hu hv => ?_
      refine (define (I.frame_mono henv (ht.trans hu)) symbol hv).bind fun w _ hw _ => ?_
      exact Keeps.pure fun _ => inUse_mono hv hw
    | [] | [_] | _ :: _ :: _ :: _ => exact Keeps.throw _
  | setq =>
    -- as for a definition, but the symbol is assigned to where it is bound
    match args with
    | [target, form] =>
      have hform : I.InUse s form := hargs form (List.mem_cons_of_mem _ List.mem_cons_self)
      refine (hsymbol target).bind fun t symbol ht _ => ?_
      refine (eval h (inUse_mono hform ht) (I.frame_mono henv ht)).bind fun u v hu hv => ?_
      refine (assign (I.frame_mono henv (ht.trans hu)) symbol hv).bind fun w _ hw _ => ?_
      exact Keeps.pure fun _ => inUse_mono hv hw
    | [] | [_] | _ :: _ :: _ :: _ => exact Keeps.throw _
  | lambda =>
    -- the new closure is in use, as its body and its frame are
    match args with
    | params :: forms =>
      obtain ⟨-, hforms⟩ := List.forall_mem_cons.mp hargs
      refine (makeClosure henv none params hforms).bind fun t c _ hc => ?_
      exact Keeps.pure fun _ => (Value.over_closure c).mpr hc
    | [] => exact Keeps.throw _
  | defun =>
    -- a closure is made and then bound, so it is in use when the frame is changed
    match args with
    | target :: params :: form :: forms =>
      obtain ⟨-, hargs⟩ := List.forall_mem_cons.mp hargs
      obtain ⟨-, hforms⟩ := List.forall_mem_cons.mp hargs
      refine (hsymbol target).bind fun t symbol ht _ => ?_
      refine (makeClosure (I.frame_mono henv ht) (some symbol) params
        (allInUse_mono hforms ht)).bind fun u c hu hc => ?_
      have hv : I.InUse u (.function (.closure c)) := (Value.over_closure c).mpr hc
      refine (define (I.frame_mono henv (ht.trans hu)) symbol hv).bind fun w _ hw _ => ?_
      exact Keeps.pure fun _ => inUse_mono hv hw
    | [] | [_] | [_, _] => exact Keeps.throw _
  | whileLoop =>
    -- a lemma of its own, by induction on the rounds
    match args with
    | condition :: form :: forms =>
      obtain ⟨hcondition, hforms⟩ := List.forall_mem_cons.mp hargs
      exact whileTrue h hcondition hforms henv rounds
    | [] | [_] => exact Keeps.throw _

theorem call {head tail : Value} (hhead : I.InUse s head) (htail : I.InUse s tail)
    {env : FrameId} (henv : I.frame s env) :
    I.Keeps s (Run.call self head tail env) I.InUse := by
  refine (eval h hhead henv).bind fun t v ht hv => ?_
  cases v with
  | function f =>
    refine (Keeps.mapM (R := I.InUse) (fun _ _ _ hu hw => inUse_mono hw hu) tail.items
      fun u hu form hform => ?_).bind fun u args hu hargs => ?_
    · have hsu := ht.trans hu
      exact eval h (inUse_mono (htail.items form hform) hsu) (I.frame_mono henv hsu)
    · exact h (.apply f args env) u ⟨inUse_mono hv hu, hargs, I.frame_mono henv (ht.trans hu)⟩
  | _ => exact Keeps.throw _

theorem evaluation (rounds : Nat) {form : Value} (hform : I.InUse s form)
    {env : FrameId} (henv : I.frame s env) :
    I.Keeps s (Run.form self rounds form env) I.InUse := by
  cases form with
  | symbol name => exact get henv name
  | cons id head tail =>
    obtain ⟨hhead, htail⟩ := (Value.over_cons _ _ _).mp hform
    simp only [Run.form]
    cases Run.specialHead? head with
    | some p =>
      refine (Keeps.ofExcept (Q := I.AllInUse) fun args hargs _ =>
        htail.listItems hargs).bind fun t args ht hargs => ?_
      exact specialForm h rounds p.1 p.2 hargs (I.frame_mono henv ht)
    | none => exact call h hhead htail henv
  | _ => exact Keeps.pure fun _ => hform

/-! ### Expansion -/

theorem once? {form : Value} (hform : I.InUse s form) {env : FrameId}
    (henv : I.frame s env) :
    I.Keeps s (Run.Expansion.once? self form env) fun t x => ∀ v, x = some v → I.InUse t v := by
  -- only a list with a symbol in front can be a macro call
  match form with
  | .cons _ (.symbol head) tail =>
    have htail : I.InUse s tail := ((Value.over_cons _ _ _).mp hform).2
    refine (expander? henv head).bind fun t x ht hx => ?_
    cases x with
    | none => exact Keeps.pure fun _ => nofun
    | some expander =>
      refine (Keeps.ofExcept (Q := I.AllInUse) fun args hargs _ =>
        (inUse_mono htail ht).listItems hargs).bind fun u args hu hargs => ?_
      refine (callClosure h (I.closure_mono (hx _ rfl) hu) hargs).bind fun w v _ hv => ?_
      exact Keeps.pure fun _ y hy => by
        cases hy
        exact hv
  | .cons _ .nil _ | .cons _ .t _ | .cons _ (.number _) _ | .cons _ (.text ..) _
  | .cons _ (.cons ..) _ | .cons _ (.function _) _ => exact Keeps.pure fun _ => nofun
  | .nil | .t | .number _ | .text .. | .symbol _ | .function _ => exact Keeps.pure fun _ => nofun

theorem expandHead {env : FrameId} (henv : I.frame s env) (rounds : Nat)
    {form : Value} (hform : I.InUse s form) :
    I.Keeps s (Run.Expansion.head self env rounds form) I.InUse := by
  induction rounds generalizing s form with
  | zero => exact Keeps.throw _
  | succ rounds ih =>
    refine (once? h hform henv).bind fun t next ht hnext => ?_
    cases next with
    | none => exact Keeps.pure fun _ => inUse_mono hform ht
    | some v => exact ih (I.frame_mono henv ht) (hnext v rfl)

omit h in
theorem cars_inUse {v : Value} (hv : I.InUse s v) : I.AllInUse s v.cars := by
  induction v with
  | cons id a d _ ih =>
    obtain ⟨ha, hd⟩ := (Value.over_cons _ _ _).mp hv
    exact List.forall_mem_cons.mpr ⟨ha, ih hd⟩
  | _ => exact fun _ hx => nomatch hx

theorem elements {env : FrameId} (henv : I.frame s env) {form : Value}
    (hform : I.InUse s form) (first : Value) :
    I.Keeps s (Run.Expansion.elements self env form first) I.InUse := by
  simp only [Run.Expansion.elements]
  -- the kept elements come from the form, the others from their own expansions
  cases keptBehind first.symbol? with
  | none => exact Keeps.pure fun _ => hform
  | some kept =>
    have hcars := cars_inUse hform
    refine (Keeps.mapM (R := I.InUse) (fun _ _ _ hu hw => inUse_mono hw hu) _
      fun t ht item hitem => ?_).bind fun t expanded ht hexpanded => ?_
    · exact h (.expand item env) t
        ⟨inUse_mono (hcars item (List.mem_of_mem_drop hitem)) ht, I.frame_mono henv ht⟩
    · refine ofFreshValue (Fresh.Yields.listOnto (fun v hv => ?_) (inUse_mono hform ht).finalTail)
      rcases List.mem_append.mp hv with hv | hv
      · exact inUse_mono (hcars v (List.mem_of_mem_take hv)) ht
      · exact hexpanded v hv

theorem wholly (rounds : Nat) {form : Value} (hform : I.InUse s form)
    {env : FrameId} (henv : I.frame s env) :
    I.Keeps s (Run.Expansion.wholly self rounds form env) I.InUse := by
  simp only [Run.Expansion.wholly]
  cases form.isCons with
  | false => exact Keeps.pure fun _ => hform
  | true =>
    refine (expandHead h henv rounds hform).bind fun t v ht hv => ?_
    cases v with
    | cons id first rest => exact elements h (I.frame_mono henv ht) hv first
    | _ => exact Keeps.pure fun _ => hv

/-! ### Reading -/

theorem parse {env : FrameId} (henv : I.frame s env) (token : Token) (mode : Mode) :
    I.ReadKeeps s (self.parse token mode env) I.InUse :=
  fun source => h (.parse token mode env source) s henv

theorem nextForm {env : FrameId} (henv : I.frame s env) (mode : Mode) :
    I.ReadKeeps s (self.form mode env) I.InUse :=
  ReadKeeps.token.bind fun _ token ht _ => parse h (I.frame_mono henv ht) token mode

omit h in
theorem atom (name : String) (env : FrameId) :
    I.Keeps s (Run.Parsing.atom name env) I.InUse := by
  refine (intern env name).bind fun t symbol _ _ => ?_
  rcases symbol.keyword with - | k
  · exact Keeps.pure fun _ => Value.over_symbol _
  · cases k with
    | nil => exact Keeps.pure fun _ => Value.over_nil
    | t => exact Keeps.pure fun _ => Value.over_t
    | _ => exact Keeps.pure fun _ => Value.over_symbol _

omit h in
theorem quoted {v : Value} (hv : I.InUse s v) (env : FrameId) :
    I.Keeps s (Run.Parsing.quoted v env) I.InUse := by
  refine (intern env _).bind fun t symbol ht _ => ?_
  refine ofFreshValue (Fresh.Yields.list ?_)
  exact List.forall_mem_cons.mpr
    ⟨Value.over_symbol _, List.forall_mem_singleton.mpr (inUse_mono hv ht)⟩

omit h in
/-- A macro is bound in the frame in which it was read. -/
theorem defineExpander {items : List Value} (hitems : I.AllInUse s items)
    {env : FrameId} (henv : I.frame s env) :
    I.Keeps s (Run.Parsing.defineExpander items env) I.InUse := by
  match items with
  | _ :: name :: params :: forms =>
    obtain ⟨-, hitems⟩ := List.forall_mem_cons.mp hitems
    obtain ⟨-, hitems⟩ := List.forall_mem_cons.mp hitems
    obtain ⟨-, hforms⟩ := List.forall_mem_cons.mp hitems
    refine (Keeps.ofExcept (Q := fun _ _ => True) fun _ _ _ => trivial).bind
      fun t symbol ht _ => ?_
    refine (makeClosure (I.frame_mono henv ht) (some symbol) params
      (allInUse_mono hforms ht)).bind fun u c hu hc => ?_
    have henv := I.frame_mono henv (ht.trans hu)
    refine (Keeps.change (Q := fun _ _ => True) fun hheld => ?_).bind fun w _ _ _ =>
      Keeps.pure fun _ => Value.over_t
    have hlarger : u.Larger (u.bindExpander env symbol c.index) :=
      ⟨Nat.le_of_eq (Store.size_bindExpander ..).symm, Nat.le_refl _⟩
    exact ⟨hheld.of_heap (I.bindExpander hheld.heap henv hc) hlarger rfl rfl, hlarger, trivial⟩
  | [] | [_] | [_, _] => exact Keeps.throw _

theorem codeList {items : List Value} (hitems : I.AllInUse s items) {env : FrameId}
    (henv : I.frame s env) : I.Keeps s (Run.Parsing.codeList self items env) I.InUse := by
  match items with
  | .symbol head :: rest =>
    simp only [Run.Parsing.codeList]
    -- a macro definition binds the expander, any other list may be a macro call
    cases head.is .macroDef with
    | true => exact defineExpander hitems henv
    | false =>
      refine (ofFreshValue (Fresh.Yields.list hitems)).bind fun t form ht hform => ?_
      have henv := I.frame_mono henv ht
      refine (expander? henv head).bind fun u x hu _ => ?_
      cases x with
      | none => exact Keeps.pure fun _ => inUse_mono hform hu
      | some _ => exact h (.expand form env) u ⟨inUse_mono hform hu, I.frame_mono henv hu⟩
  | .nil :: _ | .t :: _ | .number _ :: _ | .text .. :: _ | .cons .. :: _ | .function _ :: _
  | [] => exact ofFreshValue (Fresh.Yields.list hitems)

theorem listElements (mode : Mode) {env : FrameId} (henv : I.frame s env) (bound : Source)
    {items : Array Value} (hitems : ∀ v ∈ items.toList, I.InUse s v) :
    I.ReadKeeps s (Run.Parsing.elements self mode env bound items) I.AllInUse := by
  induction bound generalizing s items with
  | nil => exact ReadKeeps.throw _
  | cons c bound ih =>
    refine ReadKeeps.token.bind fun t token ht _ => ?_
    have henv := I.frame_mono henv ht
    have hitems : I.AllInUse t items.toList := allInUse_mono hitems ht
    have hgo : I.ReadKeeps t
        (self.parse token (mode.inside items) env >>= fun v =>
          Run.Parsing.elements self mode env bound (items.push v)) I.AllInUse := by
      refine (parse h henv token _).bind fun u v hu hv => ?_
      refine ih (I.frame_mono henv hu) fun w hw => ?_
      rw [Array.toList_push] at hw
      rcases List.mem_append.mp hw with hw | hw
      · exact inUse_mono (hitems w hw) hu
      · exact List.mem_singleton.mp hw ▸ hv
    -- the list ends, or the text does, or another element is read
    cases token with
    | rightParen => exact ReadKeeps.pure hitems
    | endOfInput => exact ReadKeeps.throw _
    | _ => exact hgo

theorem list (mode : Mode) {env : FrameId} (henv : I.frame s env) :
    I.ReadKeeps s (Run.Parsing.list self mode env) I.InUse := by
  refine ReadKeeps.get.bind fun t source ht _ => ?_
  have henv := I.frame_mono henv ht
  have hnone : ∀ v ∈ (#[] : Array Value).toList, I.InUse t v := nofun
  refine (listElements h mode henv source hnone).bind fun u items hu hitems => ?_
  cases mode with
  | data => exact ReadKeeps.ofRun (ofFreshValue (Fresh.Yields.list hitems))
  | code => exact ReadKeeps.ofRun (codeList h hitems (I.frame_mono henv hu))

theorem reading (token : Token) (mode : Mode) {env : FrameId} (henv : I.frame s env) :
    I.ReadKeeps s (Run.Parsing.form self token mode env) I.InUse := by
  cases token with
  | leftParen => exact list h mode henv
  | rightParen | endOfInput => exact ReadKeeps.throw _
  | quote =>
    refine (nextForm h henv .data).bind fun t v ht hv => ?_
    exact ReadKeeps.ofRun (quoted hv env)
  | number x => exact ReadKeeps.pure (Value.over_number x)
  | text content => exact ReadKeeps.ofRun (ofFreshValue (Fresh.Yields.text content))
  | symbol name => exact ReadKeeps.ofRun (atom name env)

/-! ### Programs -/

theorem evaluateFrom {env : FrameId} (henv : I.frame s env) (fuel : Nat)
    {result : Value} (hresult : I.InUse s result) (source : Source) :
    I.Keeps s (Run.evaluateFrom self env fuel result source) I.InUse := by
  induction fuel generalizing s result source with
  | zero => exact Keeps.throw _
  | succ fuel ih =>
    simp only [Run.evaluateFrom]
    cases source.skip.isEmpty with
    | true => exact Keeps.pure fun _ => hresult
    | false =>
      refine (nextForm h henv .code source.skip).bind fun t p ht hp => ?_
      have henv := I.frame_mono henv ht
      refine (Keeps.ofExcept (Q := I.InUse) fun v hv _ => hp v hv).bind fun u form hu hform => ?_
      have henv := I.frame_mono henv hu
      refine (eval h hform henv).bind fun w v hw hv => ?_
      exact ih (I.frame_mono henv hw) hv p.2

theorem evaluate {env : FrameId} (henv : I.frame s env) (source : Source) :
    I.Keeps s (Run.evaluate self env source) I.InUse :=
  evaluateFrom h henv _ Value.over_nil _

/-! ### Programs of the host -/

omit h in
theorem note (line : String) :
    I.Keeps s (Run.change fun s => s.note line) fun _ _ => True :=
  of_aside (.of_eq rfl rfl rfl) rfl rfl

omit h in
theorem subscribe (channel : Nat) {react : String → HostProgram} (hreact : I.Listens s react) :
    I.Keeps s (Run.change fun s => s.subscribe channel react) fun _ _ => True :=
  Keeps.change fun hs =>
    have hsame : s.SameHeap (s.subscribe channel react) := .of_eq rfl rfl rfl
    ⟨hs.of_hosting hsame (hs.hosting.subscribe channel hreact), hsame.larger, trivial⟩

omit h in
theorem setBusy (channel i : Nat) (busy : Bool) :
    I.Keeps s (Run.change fun s => s.setBusy channel i busy) fun _ _ => True :=
  Keeps.change fun hs =>
    have hsame : s.SameHeap (s.setBusy channel i busy) := .of_eq rfl rfl rfl
    ⟨hs.of_hosting hsame (hs.hosting.setBusy channel i busy), hsame.larger, trivial⟩

omit h in
theorem within_mono {p : HostProgram} (hp : p.Within (I.named s)) (hst : s.Larger t) :
    p.Within (I.named t) := hp.mono (I.named_mono hst)

/-- Where a program of the host may name a frame, every frame and every value that it can name is
in use. -/
theorem program {p : HostProgram} (hp : p.Within (I.named s)) :
    I.Keeps s (Run.program self p) fun _ _ => True := by
  have hany : ∀ {u : Store} (body : Fresh Value),
      I.Keeps u (Run.ofFresh body) fun _ _ => True := fun _ =>
    Keeps.ofFresh (P := fun _ => True) (fun _ _ _ _ => trivial) fun _ _ _ _ => trivial
  have hframe : ∀ {u : Store} {i : Nat}, I.Holds u → i < I.named u → I.frame u i :=
    fun hu hi => I.named_frame hu.heap hi
  have hvalue : ∀ {u : Store} {i : Nat} (v : Value), I.Holds u → i < I.named u →
      I.InUse u v := fun _ hu hi _ _ => I.named_closure hu.heap (Nat.zero_lt_of_lt hi)
  -- what is left of a program is within its frames after every step, as the store only grows
  induction p generalizing s with
  | done v => exact Keeps.pure fun _ => trivial
  | fail f => exact Keeps.throw _
  | list items next ih =>
    cases hp with | list hnext =>
    exact (hany _).bind fun t v ht _ => ih v (within_mono (hnext v) ht)
  | text content next ih =>
    cases hp with | text hnext =>
    exact (hany _).bind fun t v ht _ => ih v (within_mono (hnext v) ht)
  | isGlobal env next ih =>
    cases hp with | isGlobal hnext =>
    refine (Keeps.read (Q := fun _ _ => True) fun _ => trivial).bind fun t b ht _ => ?_
    exact ih b (within_mono (hnext b) ht)
  | boundSymbols env next ih =>
    cases hp with | boundSymbols hnext =>
    refine (Keeps.read (Q := fun _ _ => True) fun _ => trivial).bind fun t l ht _ => ?_
    exact ih l (within_mono (hnext l) ht)
  | define env symbol v next ih =>
    -- a fault is no end of the program, it is told of it; so for all calls that follow
    cases hp with | define henv hnext =>
    have hdefine : I.Keeps s (Run.define env symbol v) fun _ _ => True :=
      Keeps.of_holds fun hs => define (hframe hs henv) symbol (hvalue v hs henv)
    exact hdefine.observe.bind fun t r ht _ => ih r (within_mono (hnext r) ht)
  | eval form env next ih =>
    cases hp with | eval henv hnext =>
    have heval : I.Keeps s (self (.eval form env)) I.InUse :=
      Keeps.of_holds fun hs => eval h (hvalue form hs henv) (hframe hs henv)
    exact heval.observe.bind fun t r ht _ => ih r (within_mono (hnext r) ht)
  | apply f args env next ih =>
    cases hp with | apply henv hnext =>
    have happly : I.Keeps s (self (.apply f args env)) I.InUse :=
      Keeps.of_holds fun hs =>
        h (.apply f args env) s
          ⟨hvalue _ hs henv, fun v _ => hvalue v hs henv, hframe hs henv⟩
    exact happly.observe.bind fun t r ht _ => ih r (within_mono (hnext r) ht)
  | evaluate global content next ih =>
    -- the program may evaluate only where it may name a frame, and there all closures are in use
    cases hp with | evaluate henv hnext =>
    have hevaluate : I.Keeps s (Run.evaluate self global content.toList) I.InUse :=
      Keeps.of_holds fun hs => evaluate h (hframe hs henv) _
    exact hevaluate.observe.bind fun t r ht _ => ih r (within_mono (hnext r) ht)
  | emit channel content next ih =>
    cases hp with | emit hnext =>
    exact (h (.emit channel content) s trivial).bind fun t _ ht _ => ih (within_mono hnext ht)
  | subscribe channel react next _ ih =>
    -- what a subscriber does is within the same frames as the program that adds it
    cases hp with | subscribe hreact hnext =>
    exact (subscribe channel hreact).bind fun t _ ht _ => ih (within_mono hnext ht)
  | note line next ih =>
    cases hp with | note hnext =>
    exact (note line).bind fun t _ ht _ => ih (within_mono hnext ht)

theorem deliver (channel i : Nat) (content : String) :
    I.Keeps s (Run.deliver self channel i content) fun _ _ => True := by
  refine (Keeps.read (Q := fun t x => ∀ y, x = some y → I.Listens t y.react)
    fun hs y hy => hs.hosting.react_of_idle hy).bind fun t x _ hx => ?_
  cases x with
  | none => exact Keeps.pure fun _ => trivial
  | some y =>
    refine (setBusy channel i true).bind fun u _ hu _ => ?_
    have hreact := listens_mono (hx y rfl) hu
    refine (program h (hreact content)).observe.bind fun w _ _ _ => ?_
    exact setBusy channel i false

theorem emit (channel : Nat) (content : String) :
    I.Keeps s (Run.emit self channel content) fun _ _ => True := by
  refine (Keeps.read (Q := fun _ _ => True) fun _ => trivial).bind fun t count ht _ => ?_
  induction List.range count generalizing t with
  | nil => exact Keeps.pure fun _ => trivial
  -- the count was taken at the start, so subscribers added meanwhile make no difference
  | cons i is ih => exact (deliver h channel i content).bind fun u _ hu _ => ih u (ht.trans hu)

/-! ### Ports -/

omit h in
theorem takePort (table : Nat) (operation : String) (v : Value) :
    I.Keeps s (Run.Port.take table operation v) fun _ _ => True := by
  refine (Keeps.ofExcept (Q := fun _ _ => True) fun _ _ _ => trivial).bind fun t port _ _ => ?_
  refine (Keeps.read (Q := fun _ _ => True) fun _ => trivial).bind fun u x _ _ => ?_
  cases x with
  | none => exact Keeps.throw _
  | some source =>
    refine (of_aside (.of_eq rfl rfl rfl) rfl rfl).bind fun _ _ _ _ => ?_
    exact Keeps.pure fun _ => trivial

omit h in
theorem putBack (table port : Nat) (source : Source) :
    I.Keeps s (Run.change fun s => s.modifyPorts table fun t => t.putBack port source)
      fun _ _ => True :=
  of_aside (.of_eq rfl rfl rfl) rfl rfl

omit h in
theorem openFile (table : Nat) (v : Value) :
    I.Keeps s (Run.Port.openFile table v) I.InUse := by
  refine (Keeps.ofExcept (Q := fun _ _ => True) fun _ _ _ => trivial).bind fun t path _ _ => ?_
  refine (aside (Q := fun _ _ => True) (.of_eq rfl rfl rfl) rfl rfl trivial).bind
    fun u x _ _ => ?_
  cases x with
  | error e => exact Keeps.throw _
  | ok content =>
    refine (aside (Q := fun _ _ => True) (.of_eq rfl rfl rfl) rfl rfl trivial).bind
      fun w port _ _ => ?_
    exact Keeps.pure fun _ => Value.over_number _

theorem nextOfPort (table : Nat) (marker : Symbol) (v : Value) {env : FrameId}
    (henv : I.frame s env) : I.Keeps s (Run.Port.next self table marker v env) I.InUse := by
  refine (takePort table _ v).bind fun t p ht _ => ?_
  have henv := I.frame_mono henv ht
  dsimp only
  split
  · refine (putBack table _ _).bind fun u _ _ _ => ?_
    exact Keeps.pure fun _ => Value.over_symbol _
  · refine (global henv).bind fun u g hu hg => ?_
    refine (nextForm h hg .code _).bind fun w q _ hq => ?_
    -- the port is put back before it matters whether a form was read
    refine (putBack table _ _).bind fun x _ hx _ => ?_
    exact Keeps.ofExcept fun form hform _ => inUse_mono (hq form hform) hx

omit h in
theorem closePort (table : Nat) (v : Value) :
    I.Keeps s (Run.Port.close table v) I.InUse :=
  (takePort table _ v).bind fun _ _ _ _ => Keeps.pure fun _ => Value.over_t

/-! ### Calls of functions -/

theorem applied {f : Function} (hf : I.InUse s (.function f)) {args : List Value}
    (hargs : I.AllInUse s args) {env : FrameId} (henv : I.frame s env) :
    I.Keeps s (self (.apply f args env)) I.InUse :=
  h (.apply f args env) s ⟨hf, hargs, henv⟩

omit h in
theorem unary {name : String} {args : List Value} {f : Value → Run Value}
    (hf : ∀ v ∈ args, I.Keeps s (f v) I.InUse) : I.Keeps s (Run.unary name args f) I.InUse := by
  match args with
  | [v] => exact hf v List.mem_cons_self
  | [] | _ :: _ :: _ => exact Keeps.throw _

omit h in
theorem binary {name : String} {args : List Value}
    {f : Value → Value → Run Value}
    (hf : ∀ v ∈ args, ∀ w ∈ args, I.Keeps s (f v w) I.InUse) :
    I.Keeps s (Run.binary name args f) I.InUse := by
  match args with
  | [v, w] => exact hf v List.mem_cons_self w (List.mem_cons_of_mem _ List.mem_cons_self)
  | [] | [_] | _ :: _ :: _ :: _ => exact Keeps.throw _

omit h in
/-- A primitive of one argument that is a test. -/
theorem test {name : String} {args : List Value} (f : Value → Bool) :
    I.Keeps s (Run.unary name args fun v => return .ofBool (f v)) I.InUse :=
  unary fun _ _ => Keeps.pure fun _ => Value.over_ofBool _

omit h in
/-- The function and the elements that a primitive is given. -/
theorem functionAndElements {operation : String} {v w : Value} (hv : I.InUse s v)
    (hw : I.InUse s w) {k : Function → List Value → Run Value}
    (hk : ∀ t f elements, s.Larger t → I.InUse t (.function f) → I.AllInUse t elements →
      I.Keeps t (k f elements) I.InUse) :
    I.Keeps s (Run.ofExcept (v.expectFunction operation) >>= fun f =>
      Run.ofFresh w.elements >>= fun elements => k f elements) I.InUse := by
  refine (Keeps.ofExcept (Q := fun t f => I.InUse t (.function f)) fun f hf _ =>
    hv.expectFunction hf).bind fun t f ht hf => ?_
  refine (Keeps.ofFresh (Q := I.AllInUse) (Fresh.Yields.elements (inUse_mono hw ht))
    fun _ _ hu hvs => allInUse_mono hvs hu).bind fun u elements hu helements => ?_
  exact hk u f elements (ht.trans hu) (inUse_mono hf hu) helements

theorem reduceElements {f : Function} (hf : I.InUse s (.function f)) {env : FrameId}
    (henv : I.frame s env) {elements : List Value} (helements : I.AllInUse s elements) :
    I.Keeps s (Run.reduceElements self f env elements) I.InUse := by
  cases elements with
  | nil => exact Keeps.pure fun _ => Value.over_nil
  | cons first rest =>
    obtain ⟨hfirst, hrest⟩ := List.forall_mem_cons.mp helements
    refine Keeps.foldlM rest hfirst fun t v ht hv w hw => ?_
    refine applied h (inUse_mono hf ht) ?_ (I.frame_mono henv ht)
    exact List.forall_mem_cons.mpr
      ⟨hv, List.forall_mem_singleton.mpr (inUse_mono (hrest w hw) ht)⟩

/-- A host function hands on what it is given and what its program is answered. -/
theorem hostFunction (rounds : Nat) (name : String) (index : Nat) {args : List Value}
    {env : FrameId} (henv : I.frame s env) :
    I.Keeps s (Run.primitive self rounds name (.host index) args env) I.InUse := by
  -- a call of a host function is counted before its program is run
  refine (Keeps.update (Q := fun t x => ∀ f n, x = some (f, n) → I.Hosts t f) fun hs => ?_).bind
    fun t x ht hx => ?_
  · have hsame : s.SameHeap (s.countCall index).2 := by
      rcases e : s.hosts[index]? with - | ⟨f, n⟩ <;> simp only [Store.countCall, e]
      · exact .refl s
      · exact .of_eq rfl rfl rfl
    refine ⟨hs.of_hosting hsame (hs.hosting.countCall index), hsame.larger, fun f n hf => ?_⟩
    exact hosts_mono (hs.hosting.function_of_countCall hf) hsame.larger
  · rcases x with - | ⟨f, n⟩
    · exact Keeps.pure fun _ => Value.over_nil
    -- where a program may name a frame, all closures are in use, so any result fits
    · obtain ⟨hnamed, hwithin⟩ := hx f n rfl t (.refl t) n args env (I.frame_mono henv ht)
      refine (program h hwithin).mono fun u v hu hu' _ _ _ => ?_
      exact I.named_closure hu'.heap
        (Nat.lt_of_lt_of_le (Nat.zero_lt_of_lt hnamed) (I.named_mono hu))

/-- A primitive makes its result of its arguments, and it hands on nothing else. -/
theorem primitive (rounds : Nat) (name : String) (p : Primitive) {args : List Value}
    (hargs : I.AllInUse s args) {env : FrameId} (henv : I.frame s env) :
    I.Keeps s (Run.primitive self rounds name p args env) I.InUse := by
  have hsingle : ∀ {t : Store} {x : Value}, I.InUse t x → I.AllInUse t [x] :=
    fun hx => List.forall_mem_singleton.mpr hx
  cases p with
  -- primitives that make a value of what their arguments are made of
  | list => exact ofFreshValue (Fresh.Yields.list hargs)
  | cons =>
    exact binary fun v hv w hw => ofFreshValue (Fresh.Yields.cons (hargs v hv) (hargs w hw))
  | car => exact unary fun v hv => Keeps.ofExcept fun _ hw _ => Value.Over.car (hargs v hv) hw
  | cdr => exact unary fun v hv => Keeps.ofExcept fun _ hw _ => Value.Over.cdr (hargs v hv) hw
  -- tests have t or nil for a result
  | isNil => exact test _
  | isCons => exact test _
  | isSymbol => exact test _
  | isNumber => exact test _
  | isText => exact test _
  | isFunction => exact test _
  | fold op => exact ofFreshValue (Fresh.Yields.fold op hargs)
  | length => exact unary fun v _ => Keeps.ofExcept fun w hw _ => Value.length_over hw
  | reverse => exact unary fun v hv => ofFreshValue (Fresh.Yields.reverse (hargs v hv))
  | map =>
    -- primitives that call a function for every element, with what has been added by the others
    refine binary fun v hv w hw => functionAndElements (hargs v hv) (hargs w hw)
      fun t f elements ht hf helements => ?_
    refine (Keeps.mapM (R := I.InUse) (fun _ _ _ hu hx => inUse_mono hx hu) elements
      fun u hu x hx => ?_).bind fun u results _ hresults => ?_
    · exact applied h (inUse_mono hf hu) (hsingle (inUse_mono (helements x hx) hu))
        (I.frame_mono henv (ht.trans hu))
    · exact ofFreshValue (Fresh.Yields.list hresults)
  | filter =>
    -- as for `map`, but the elements themselves are kept
    refine binary fun v hv w hw => functionAndElements (hargs v hv) (hargs w hw)
      fun t f elements ht hf helements => ?_
    refine (Keeps.filterM elements fun u hu x hx => ?_).bind fun u kept hu hkept => ?_
    · refine (applied h (inUse_mono hf hu) (hsingle (inUse_mono (helements x hx) hu))
        (I.frame_mono henv (ht.trans hu))).bind fun _ _ _ _ => ?_
      exact Keeps.pure fun _ => trivial
    · exact ofFreshValue (Fresh.Yields.list fun x hx => inUse_mono (helements x (hkept x hx)) hu)
  | reduce =>
    exact binary fun v hv w hw => functionAndElements (hargs v hv) (hargs w hw)
      fun t f elements ht hf helements => reduceElements h hf (I.frame_mono henv ht) helements
  | range => exact ofFreshValue (Fresh.Yields.range args)
  | substring => exact ofFreshValue (Fresh.Yields.substring args)
  | eq => exact binary fun _ _ _ _ => Keeps.pure fun _ => Value.over_ofBool _
  | equal => exact binary fun _ _ _ _ => Keeps.pure fun _ => Value.over_ofBool _
  | gensym =>
    exact (generateSymbol env).bind fun _ _ _ _ => Keeps.pure fun _ => Value.over_symbol _
  | print channel =>
    -- the argument is the result when it has been delivered
    refine unary fun v hv => (h (.emit channel v.print) s trivial).bind fun t _ ht _ => ?_
    exact Keeps.pure fun _ => inUse_mono (hargs v hv) ht
  | apply =>
    -- only a function is called, and its arguments are the elements of the list
    refine binary fun v hv w hw => ?_
    have hfunction := hargs v hv
    cases v with
    | function f =>
      refine (Keeps.ofExcept (Q := I.AllInUse) fun items hitems _ =>
        (hargs w hw).listItems hitems).bind fun t items ht hitems => ?_
      exact applied h (inUse_mono hfunction ht) hitems (I.frame_mono henv ht)
    | _ => exact Keeps.throw _
  | eval =>
    -- the form is expanded in the global frame, and what comes of it is evaluated there
    refine unary fun v hv => (global henv).bind fun t g ht hg => ?_
    refine (h (.expand v g) t ⟨inUse_mono (hargs v hv) ht, hg⟩).bind fun u form hu hform => ?_
    exact eval h hform (I.frame_mono hg hu)
  | expandOnce =>
    refine unary fun v hv => (once? h (hargs v hv) henv).bind fun t x ht hx => ?_
    refine Keeps.pure fun _ => ?_
    cases x with
    | none => exact inUse_mono (hargs v hv) ht
    | some w => exact hx w rfl
  | expandHead => exact unary fun v hv => expandHead h henv rounds (hargs v hv)
  -- ports hold no values
  | openPort table => exact unary fun v _ => openFile table v
  | readPort table marker => exact unary fun v _ => nextOfPort h table marker v henv
  | isMarker marker => exact test _
  | closePort table => exact unary fun v _ => closePort table v
  | host index => exact hostFunction h rounds name index henv

theorem apply (rounds : Nat) {f : Function} (hf : I.InUse s (.function f))
    {args : List Value} (hargs : I.AllInUse s args) {env : FrameId}
    (henv : I.frame s env) : I.Keeps s (Run.apply self rounds f args env) I.InUse := by
  cases f with
  | native n =>
    refine (Keeps.ofExcept (Q := fun _ _ => True) fun _ _ _ => trivial).bind fun t _ ht _ => ?_
    exact primitive h rounds n.name n.body (allInUse_mono hargs ht) (I.frame_mono henv ht)
  | closure c => exact callClosure h ((Value.over_closure c).mp hf) hargs

end Activities

end Invariant.Keeps

/-! ### The interpreter -/

/-- What an activity does keeps an invariant, if the calls that it makes do. -/
theorem perform_keeps {self : Recur} (h : RecurKeeps I self) (rounds : Nat) :
    RecurKeeps I (perform self rounds) := by
  intro α c s hc
  cases c with
  | eval form env => exact Keeps.evaluation h rounds hc.1 hc.2
  | apply f args env => exact Keeps.apply h rounds hc.1 hc.2.1 hc.2.2
  | expand form env => exact Keeps.wholly h rounds hc.1 hc.2
  | parse token mode global source => exact Keeps.reading h token mode hc source
  | emit channel content => exact Keeps.emit h channel content

/-- Counting a call as a nested step has nothing to do with the heap. -/
theorem nested_keeps {α : Type} (c : Call α) {body : Run α}
    (hbody : ∀ t, s.Larger t → I.Keeps t body (c.Results I)) :
    I.Keeps s (c.nested body) (c.Results I) := by
  intro hs
  unfold Call.nested
  split
  · exact hbody s (.refl s) hs
  · next env _ =>
    split
    -- a step that is refused has no value: neither as a run nor as a reading
    · next f _ =>
      refine ⟨hs, .refl s, fun {a} ha => ?_⟩
      cases c with
      | parse token mode global source =>
        cases ha
        exact nofun
      | _ => cases ha
    · have hdeep := Store.SameHeap.deepen s env
      have hs' := hs.of_hosting hdeep (hs.hosting.of_same rfl rfl)
      obtain ⟨hholds, hlarger, hresult⟩ := hbody _ hdeep.larger hs'
      rcases hr : body (s.deepen env) with ⟨r, t⟩
      rw [hr] at hholds hlarger hresult
      have hrise := Store.SameHeap.riseIn t (s.realmOf env)
      refine ⟨hholds.of_hosting hrise (hholds.hosting.of_same rfl rfl),
        hdeep.larger.trans (hlarger.trans hrise.larger), fun {a} ha => ?_⟩
      exact Call.Results.mono c (hresult ha) hrise.larger

/-- Whatever is called with what is in use keeps the invariant. -/
theorem run_keeps (rounds calls : Nat) : RecurKeeps I (run rounds calls) := by
  induction calls with
  | zero => exact fun _ _ _ => Keeps.throw _
  | succ calls ih =>
    intro α c s hc
    exact nested_keeps c fun t ht => perform_keeps ih rounds c t (Call.InUse.mono c hc ht)

end PocketLisp
