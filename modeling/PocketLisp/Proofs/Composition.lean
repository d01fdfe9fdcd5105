/-
PocketLisp/Proofs/Composition.lean

What activities are made of.

An activity is a family of runs, one for every way to carry out calls.  It is
`Composed` of operations of one kind if it is put together of these, of calls
and of results and faults, where each part may depend on the results of those
before it.  All activities are composed of the operations that `Operates`
lists (`perform_composed`).

Of most activities more is known, which `ComposedOf` says: they leave ports
alone, and let expanders be defined and texts be read in frames of a kind `P`
only, if they are given such frames for that (`OperatesIn`, `CallsIn`).  This
is shown once for each activity, and `Composed` follows from it.

So a property of runs is one of the interpreter if it goes along with the ways
to put runs together, which are few.  What every operation leads from one
store to another by, the interpreter does as well (`run_leads`).
-/
import PocketLisp.Engine
import PocketLisp.Proofs.Steps

namespace PocketLisp

/-! ### Operations and calls -/

/-- Kinds of operations on the store, each with a result. -/
abbrev Kind := ∀ ⦃α : Type⦄, (Store → α × Store) → Prop

/-- The operations on the store that an interpreter is made of, without those that tell whether the
program of a subscriber is running. -/
inductive Operates : Kind
  | read {α : Type} (f : Store → α) : Operates fun s => (f s, s)
  /-- makes new cells and texts -/
  | fresh {α : Type} (f : ObjectId → α × ObjectId) :
      Operates fun s => ((f s.nextId).1, { s with nextId := (f s.nextId).2 })
  | intern (env : FrameId) (name : String) : Operates fun s => s.intern env name
  | generateSymbol (env : FrameId) : Operates fun s => s.generateSymbol env
  | extend (env : FrameId) : Operates fun s => s.extend env
  | addClosure (c : Closure) : Operates fun s => s.addClosure c
  | bindAt (i : FrameId) (symbol : Symbol) (v : Value) :
      Operates fun s => ((), s.bindAt i symbol v)
  | bindExpander (i : FrameId) (symbol : Symbol) (closure : Nat) :
      Operates fun s => ((), s.bindExpander i symbol closure)
  | readFile (path : String) : Operates fun s => s.readFile path
  | openPort (table : Nat) (source : Source) : Operates fun s => s.openPort table source
  | modifyPorts (table : Nat) (change : PortTable → PortTable) :
      Operates fun s => ((), s.modifyPorts table change)
  | countCall (i : Nat) : Operates fun s => s.countCall i
  | subscribe (channel : Nat) (react : String → HostProgram) :
      Operates fun s => ((), s.subscribe channel react)
  | note (line : String) : Operates fun s => ((), s.note line)

/-- All operations on the store that an interpreter is made of. -/
inductive OperatesOrMarks : Kind
  | operates {α : Type} {f : Store → α × Store} : Operates f → OperatesOrMarks f
  | setBusy (channel i : Nat) (busy : Bool) :
      OperatesOrMarks fun s => ((), s.setBusy channel i busy)

/-- A program of the host that reads and evaluates texts in frames of a kind only, as do the
programs that it subscribes. -/
def HostProgram.ReadsIn (P : FrameId → Prop) : HostProgram → Prop
  | .done _ | .fail _ => True
  | .list _ next | .text _ next => ∀ v, (next v).ReadsIn P
  | .isGlobal _ next => ∀ b, (next b).ReadsIn P
  | .boundSymbols _ next => ∀ symbols, (next symbols).ReadsIn P
  | .define _ _ _ next => ∀ r, (next r).ReadsIn P
  | .eval _ _ next | .apply _ _ _ next => ∀ r, (next r).ReadsIn P
  | .evaluate global _ next => P global ∧ ∀ r, (next r).ReadsIn P
  | .emit _ _ next | .note _ next => next.ReadsIn P
  | .subscribe _ react next => (∀ content, (react content).ReadsIn P) ∧ next.ReadsIn P

/-- The operations that leave ports and files alone and bind expanders in frames of a kind only. -/
inductive OperatesIn (P : FrameId → Prop) : Kind
  /-- reads anything but ports -/
  | read {α : Type} {f : Store → α} :
      (∀ s tables, f { s with portTables := tables } = f s) → OperatesIn P fun s => (f s, s)
  | fresh {α : Type} (f : ObjectId → α × ObjectId) :
      OperatesIn P fun s => ((f s.nextId).1, { s with nextId := (f s.nextId).2 })
  | intern (env : FrameId) (name : String) : OperatesIn P fun s => s.intern env name
  | generateSymbol (env : FrameId) : OperatesIn P fun s => s.generateSymbol env
  | extend (env : FrameId) : OperatesIn P fun s => s.extend env
  | addClosure (c : Closure) : OperatesIn P fun s => s.addClosure c
  | bindAt (i : FrameId) (symbol : Symbol) (v : Value) :
      OperatesIn P fun s => ((), s.bindAt i symbol v)
  | bindExpander {i : FrameId} (symbol : Symbol) (closure : Nat) :
      P i → OperatesIn P fun s => ((), s.bindExpander i symbol closure)
  | countCall (i : Nat) : OperatesIn P fun s => s.countCall i
  | subscribe (channel : Nat) {react : String → HostProgram} :
      (∀ content, (react content).ReadsIn P) →
        OperatesIn P fun s => ((), s.subscribe channel react)
  | note (line : String) : OperatesIn P fun s => ((), s.note line)

/-- The operations that leave ports and files alone. -/
inductive OperatesApart : Kind
  | operates {α : Type} {f : Store → α × Store} :
      OperatesIn (fun _ => True) f → OperatesApart f
  | setBusy (channel i : Nat) (busy : Bool) : OperatesApart fun s => ((), s.setBusy channel i busy)

/-- The operations that look at ports, take them out of their tables and put them back only if these
are of a kind. -/
inductive OperatesOn (T : Nat × Nat → Prop) : Kind
  | operates {α : Type} {f : Store → α × Store} : OperatesIn (fun _ => True) f → OperatesOn T f
  | readFile (path : String) : OperatesOn T fun s => s.readFile path
  | openPort (table : Nat) (source : Source) : OperatesOn T fun s => s.openPort table source
  | source? {table port : Nat} :
      T (table, port) → OperatesOn T fun s => ((s.portTable table).source? port, s)
  | remove {table port : Nat} :
      T (table, port) → OperatesOn T fun s => ((), s.modifyPorts table fun t => t.remove port)
  | putBack {table port : Nat} (source : Source) : T (table, port) →
      OperatesOn T fun s => ((), s.modifyPorts table fun t => t.putBack port source)

/-- Kinds of calls. -/
abbrev CallKind := ∀ ⦃α : Type⦄, Call α → Prop

/-- The kind of all calls. -/
def AnyCall : CallKind := fun _ _ => True

/-- The calls that read forms in frames of a kind only. -/
def CallsIn (P : FrameId → Prop) : CallKind
  | _, .parse _ _ global _ => P global
  | _, _ => True

/-! ### Composed activities -/

/-- An activity is put together of operations of one kind and of calls of one kind. -/
inductive ComposedOf (O : Kind) (C : CallKind) : {α : Type} → (Recur → Run α) → Prop
  | pure {α : Type} (a : α) : ComposedOf O C fun _ => pure a
  | throw {α : Type} (e : Stop) : ComposedOf O C fun _ => (throw e : Run α)
  | update {α : Type} {f : Store → α × Store} : O f → ComposedOf O C fun _ => Run.update f
  | call {α : Type} (c : Call α) : C c → ComposedOf O C fun self => self c
  | bind {α β : Type} {m : Recur → Run α} {k : α → Recur → Run β} :
      ComposedOf O C m → (∀ a, ComposedOf O C (k a)) →
        ComposedOf O C fun self => m self >>= fun a => k a self
  | observe {α : Type} {m : Recur → Run α} :
      ComposedOf O C m → ComposedOf O C fun self => Run.observe (m self)

/-- An activity is put together of operations of one kind and of any calls. -/
abbrev Composed (O : Kind) {α : Type} (m : Recur → Run α) : Prop := ComposedOf O AnyCall m

/-- A reading is put together of operations of one kind and of calls of one kind. -/
def ReadComposedOf (O : Kind) (C : CallKind) {α : Type} (r : Recur → Reading α) : Prop :=
  ∀ source, ComposedOf O C fun self => r self source

/-- An activity leaves ports alone, and binds expanders and reads texts in frames of a kind only. -/
abbrev ComposedIn (P : FrameId → Prop) {α : Type} (m : Recur → Run α) : Prop :=
  ComposedOf (OperatesIn P) (CallsIn P) m

abbrev ReadComposedIn (P : FrameId → Prop) {α : Type} (r : Recur → Reading α) : Prop :=
  ReadComposedOf (OperatesIn P) (CallsIn P) r

variable {O O' : Kind} {C : CallKind} {P : FrameId → Prop} {T : Nat × Nat → Prop} {α β : Type}

theorem OperatesIn.forget {f : Store → α × Store} (h : OperatesIn P f) : Operates f := by
  cases h with
  | read _ => exact .read _
  | _ => constructor

theorem OperatesOn.forget {f : Store → α × Store} (h : OperatesOn T f) : Operates f := by
  cases h with
  | operates h => exact h.forget
  | readFile path => exact .readFile path
  | openPort table source => exact .openPort table source
  | source? _ => exact .read _
  | remove _ => exact .modifyPorts _ _
  | putBack source _ => exact .modifyPorts _ _

theorem OperatesApart.forget {f : Store → α × Store} (h : OperatesApart f) :
    OperatesOrMarks f := by
  cases h with
  | operates h => exact .operates h.forget
  | setBusy channel i busy => exact .setBusy channel i busy

/-- Any frame is one of the kind of all frames. -/
theorem HostProgram.readsIn_true (p : HostProgram) : p.ReadsIn fun _ => True := by
  induction p with
  | done _ | fail _ => trivial
  | list _ _ ih | text _ _ ih => exact ih
  | isGlobal _ _ ih => exact ih
  | boundSymbols _ _ ih => exact ih
  | define _ _ _ _ ih => exact ih
  | eval _ _ _ ih | apply _ _ _ _ ih => exact ih
  | evaluate _ _ _ ih => exact ⟨trivial, ih⟩
  | emit _ _ _ ih | note _ _ ih => exact ih
  | subscribe _ _ _ ihreact ih => exact ⟨ihreact, ih⟩

namespace ComposedOf

theorem mono (hO : ∀ {α : Type} {f : Store → α × Store}, O f → O' f) {m : Recur → Run α}
    (h : ComposedOf O C m) : ComposedOf O' C m := by
  induction h with
  | pure a => exact .pure a
  | throw e => exact .throw e
  | update hf => exact .update (hO hf)
  | call c hc => exact .call c hc
  | bind _ _ ih ihk => exact .bind ih ihk
  | observe _ ih => exact .observe ih

/-- What is known of the calls may be forgotten. -/
theorem forget {m : Recur → Run α} (h : ComposedOf O C m) : Composed O m := by
  induction h with
  | pure a => exact .pure a
  | throw e => exact .throw e
  | update hf => exact .update hf
  | call c _ => exact .call c trivial
  | bind _ _ ih ihk => exact .bind ih ihk
  | observe _ ih => exact .observe ih

/-! ### Lists of steps -/

protected theorem mapM {f : Recur → α → Run β} (h : ∀ a, ComposedOf O C fun self => f self a)
    (xs : List α) : ComposedOf O C fun self => xs.mapM (f self) := by
  induction xs with
  | nil => exact .pure []
  | cons x xs ih =>
    simp only [List.mapM_cons]
    exact (h x).bind fun y => ih.bind fun ys => .pure (y :: ys)

protected theorem foldlM {g : Recur → β → α → Run β}
    (h : ∀ b a, ComposedOf O C fun self => g self b a) (b : β) (xs : List α) :
    ComposedOf O C fun self => xs.foldlM (g self) b := by
  induction xs generalizing b with
  | nil => exact .pure b
  | cons x xs ih => exact (h b x).bind fun b' => ih b'

theorem filterAuxM {g : Recur → α → Run Bool} (h : ∀ a, ComposedOf O C fun self => g self a)
    (xs acc : List α) : ComposedOf O C fun self => xs.filterAuxM (g self) acc := by
  induction xs generalizing acc with
  | nil => exact .pure acc
  | cons x xs ih => exact (h x).bind fun b => ih _

protected theorem filterM {g : Recur → α → Run Bool} (h : ∀ a, ComposedOf O C fun self => g self a)
    (xs : List α) : ComposedOf O C fun self => xs.filterM (g self) :=
  (filterAuxM h xs []).bind fun kept => .pure kept.reverse

protected theorem forM {f : Recur → α → Run Unit} (h : ∀ a, ComposedOf O C fun self => f self a)
    (xs : List α) : ComposedOf O C fun self => xs.forM (f self) := by
  induction xs with
  | nil => exact .pure ()
  | cons x xs ih => exact (h x).bind fun _ => ih

/-! ### Computations without calls -/

protected theorem ofExcept (x : Except Fault α) : ComposedOf O C fun _ => Run.ofExcept x := by
  cases x with
  | ok a => exact .pure a
  | error f => exact .throw (.fault f)

/-- What comes after a computation that can only fail knows that it has not failed. -/
theorem bind_ofExcept {x : Except Fault α} {k : α → Recur → Run β}
    (h : ∀ a, x = .ok a → ComposedOf O C (k a)) :
    ComposedOf O C fun self => Run.ofExcept x >>= fun a => k a self := by
  cases x with
  | ok a => exact h a rfl
  | error f => exact .throw (.fault f)

protected theorem read {f : Store → α} (h : ∀ s tables, f { s with portTables := tables } = f s) :
    ComposedOf (OperatesIn P) C fun _ => Run.read f :=
  ComposedOf.update (OperatesIn.read h)

protected theorem change {f : Store → Store} (h : O fun s => ((), f s)) :
    ComposedOf O C fun _ => Run.change f :=
  ComposedOf.update h

protected theorem ofFresh (body : Fresh α) :
    ComposedOf (OperatesIn P) C fun _ => Run.ofFresh body := by
  -- the identities are taken first, also by a computation that fails
  have hsplit : Run.ofFresh body =
      (Run.update (fun s => ((body s.nextId).1, { s with nextId := (body s.nextId).2 })) >>=
        Run.ofExcept) := by
    funext s
    rw [Run.ofFresh_apply]
    rfl
  rw [hsplit]
  exact (ComposedOf.update (.fresh fun next => body next)).bind fun x => ComposedOf.ofExcept x

end ComposedOf

namespace ReadComposedOf

variable {r : Recur → Reading α}

protected theorem pure (a : α) : ReadComposedOf O C fun _ => (pure a : Reading α) :=
  fun _ => .pure _

protected theorem throw (f : Fault) : ReadComposedOf O C fun _ => (throw f : Reading α) :=
  fun _ => .pure _

protected theorem token : ReadComposedOf O C fun _ => Reading.token :=
  fun _ => .pure _

protected theorem get : ReadComposedOf O C fun _ => (MonadState.get : Reading Source) :=
  fun _ => .pure _

protected theorem bind {k : α → Recur → Reading β} (h : ReadComposedOf O C r)
    (hk : ∀ a, ReadComposedOf O C (k a)) :
    ReadComposedOf O C fun self => r self >>= fun a => k a self := by
  intro source
  simp only [Reading.bind_apply]
  -- a fault of the first reading ends the second before it starts
  refine (h source).bind fun p => ?_
  rcases p with ⟨f | a, rest⟩
  · exact .pure _
  · exact hk a rest

protected theorem ofRun {m : Recur → Run α} (h : ComposedOf O C m) :
    ReadComposedOf O C fun self => Reading.ofRun (m self) :=
  fun _ => h.observe.bind fun _ => .pure _

end ReadComposedOf

/-! ### All activities -/

/-- Whether a primitive neither uses ports nor is a function of the host. -/
def Primitive.isCore : Primitive → Bool
  | .openPort _ | .readPort .. | .closePort _ | .host _ => false
  | _ => true

namespace ComposedOf

section Scope

theorem intern (env : FrameId) (name : String) :
    ComposedIn P fun _ => Run.intern env name := .update (.intern env name)

theorem global (env : FrameId) : ComposedIn P fun _ => Run.global env :=
  ComposedOf.read fun _ _ => rfl

theorem get (env : FrameId) (symbol : Symbol) : ComposedIn P fun _ => Run.get env symbol :=
  (ComposedOf.read (f := fun s => s.valueOf env symbol) fun _ _ => rfl).bind fun x => .ofExcept x

theorem bindIn {place : Store → Except Fault FrameId}
    (h : ∀ s tables, place { s with portTables := tables } = place s) (symbol : Symbol)
    (v : Value) :
    ComposedIn P fun _ => (Run.read place >>= fun x => Run.ofExcept x >>= fun i =>
      Run.change fun s => s.bindAt i symbol v) :=
  (ComposedOf.read h).bind fun x => (ComposedOf.ofExcept x).bind fun i =>
    ComposedOf.change (.bindAt i symbol v)

theorem define (env : FrameId) (symbol : Symbol) (v : Value) :
    ComposedIn P fun _ => Run.define env symbol v := bindIn (fun _ _ => rfl) symbol v

theorem assign (env : FrameId) (symbol : Symbol) (v : Value) :
    ComposedIn P fun _ => Run.assign env symbol v := bindIn (fun _ _ => rfl) symbol v

theorem makeClosure (name : Option Symbol) (params : Value) (forms : List Value) (env : FrameId) :
    ComposedIn P fun _ => Run.makeClosure name params forms env :=
  (ComposedOf.ofExcept (Parameters.ofValue params)).bind fun _ =>
    (ComposedOf.update (.addClosure _)).bind fun _ => .pure _

theorem bindAll (env : FrameId) (names : List Symbol) (args : List Value) :
    ComposedIn P fun _ => Run.bindAll env names args := by
  induction names generalizing args with
  | nil => exact .pure ()
  | cons s ss ih =>
    cases args with
    | nil => exact .pure ()
    | cons v vs => exact (define env s v).bind fun _ => ih vs

theorem body (forms : List Value) (env : FrameId) :
    ComposedIn P fun self => Run.body self forms env :=
  ComposedOf.foldlM (fun _ form => .call (.eval form env) trivial) .nil forms

theorem callClosure (index : Nat) (args : List Value) :
    ComposedIn P fun self => Run.callClosure self index args := by
  refine (ComposedOf.read (f := fun s => s.closure index) fun _ _ => rfl).bind fun c => ?_
  cases hf : c.params.fault? c.displayName args.length with
  | some f => exact .throw _
  | none =>
    refine (ComposedOf.update (.extend c.env)).bind fun env => ?_
    refine (bindAll env c.params.positional args).bind fun _ => ?_
    cases hrest : c.params.rest with
    | none => exact (ComposedOf.pure ()).bind fun _ => body c.body env
    | some name =>
      refine (ComposedOf.ofFresh _).bind fun v => ?_
      exact (define env name v).bind fun _ => body c.body env

end Scope

/-! #### Evaluation -/

theorem whileTrue (condition : Value) (forms : List Value) (env : FrameId) (rounds : Nat) :
    ComposedIn P fun self => Run.whileTrue self condition forms env rounds := by
  induction rounds with
  | zero => exact .throw _
  | succ n ih =>
    refine (ComposedOf.call (.eval condition env) trivial).bind fun v => ?_
    cases v.isTrue with
    | false => exact .pure _
    | true => exact (body forms env).bind fun _ => ih

theorem specialForm (rounds : Nat) (form : SpecialForm) (head : String) (args : List Value)
    (env : FrameId) :
    ComposedIn P fun self => Run.specialForm self rounds form head args env := by
  -- each form is put together of calls, changes and what looks at the store
  cases form with
  | quote =>
    match args with
    | [v] => exact .pure _
    | [] | _ :: _ :: _ => exact .throw _
  | ifThenElse =>
    match args with
    | [condition, yes, no] =>
      refine (ComposedOf.call (.eval condition env) trivial).bind fun v => ?_
      cases v.isTrue with
      | true => exact .call (.eval yes env) trivial
      | false => exact .call (.eval no env) trivial
    | [] | [_] | [_, _] | _ :: _ :: _ :: _ :: _ => exact .throw _
  | progn => exact body args env
  | define =>
    -- the frame is changed last, when the form has been evaluated
    match args with
    | [target, form] =>
      refine (ComposedOf.ofExcept target.expectSymbol).bind fun symbol => ?_
      refine (ComposedOf.call (.eval form env) trivial).bind fun v => ?_
      exact (define env symbol v).bind fun _ => .pure _
    | [] | [_] | _ :: _ :: _ :: _ => exact .throw _
  | setq =>
    match args with
    | [target, form] =>
      refine (ComposedOf.ofExcept target.expectSymbol).bind fun symbol => ?_
      refine (ComposedOf.call (.eval form env) trivial).bind fun v => ?_
      exact (assign env symbol v).bind fun _ => .pure _
    | [] | [_] | _ :: _ :: _ :: _ => exact .throw _
  | lambda =>
    match args with
    | params :: forms => exact (makeClosure none params forms env).bind fun _ => .pure _
    | [] => exact .throw _
  | defun =>
    match args with
    | target :: params :: form :: forms =>
      refine (ComposedOf.ofExcept target.expectSymbol).bind fun symbol => ?_
      refine (makeClosure (some symbol) params (form :: forms) env).bind fun c => ?_
      exact (define env symbol _).bind fun _ => .pure _
    | [] | [_] | [_, _] => exact .throw _
  | whileLoop =>
    -- by induction on the rounds, in a lemma of its own
    match args with
    | condition :: form :: forms => exact whileTrue condition (form :: forms) env rounds
    | [] | [_] => exact .throw _

theorem functionCall (head tail : Value) (env : FrameId) :
    ComposedIn P fun self => Run.call self head tail env := by
  refine (ComposedOf.call (.eval head env) trivial).bind fun v => ?_
  cases v with
  | function f =>
    refine (ComposedOf.mapM (fun form => .call (.eval form env) trivial) tail.items).bind
      fun args => ?_
    exact .call (.apply f args env) trivial
  | _ => exact .throw _

theorem evaluation (rounds : Nat) (form : Value) (env : FrameId) :
    ComposedIn P fun self => Run.form self rounds form env := by
  cases form with
  | symbol s => exact get env s
  | cons id head tail =>
    simp only [Run.form]
    cases Run.specialHead? head with
    | some p =>
      exact (ComposedOf.ofExcept tail.listItems).bind
        fun args => specialForm rounds p.1 p.2 args env
    | none => exact functionCall head tail env
  | _ => exact .pure _

/-! #### Expansion -/

theorem once? (form : Value) (env : FrameId) :
    ComposedIn P fun self => Run.Expansion.once? self form env := by
  match form with
  | .cons _ (.symbol head) tail =>
    refine (ComposedOf.read (f := fun s => s.expander? env head) fun _ _ => rfl).bind fun x => ?_
    cases x with
    | none => exact .pure _
    | some expander =>
      refine (ComposedOf.ofExcept tail.listItems).bind fun args => ?_
      exact (callClosure expander args).bind fun _ => .pure _
  | .cons _ .nil _ | .cons _ .t _ | .cons _ (.number _) _ | .cons _ (.text ..) _
  | .cons _ (.cons ..) _ | .cons _ (.function _) _ => exact .pure _
  | .nil | .t | .number _ | .text .. | .symbol _ | .function _ => exact .pure _

theorem expandHead (env : FrameId) (rounds : Nat) (form : Value) :
    ComposedIn P fun self => Run.Expansion.head self env rounds form := by
  induction rounds generalizing form with
  | zero => exact .throw _
  | succ n ih =>
    refine (once? form env).bind fun next => ?_
    cases next with
    | none => exact .pure _
    | some next => exact ih next

theorem elements (env : FrameId) (form first : Value) :
    ComposedIn P fun self => Run.Expansion.elements self env form first := by
  simp only [Run.Expansion.elements]
  cases keptBehind first.symbol? with
  | none => exact .pure _
  | some kept =>
    refine (ComposedOf.mapM (fun item => .call (.expand item env) trivial) _).bind
      fun expanded => ?_
    exact ComposedOf.ofFresh _

theorem wholly (rounds : Nat) (form : Value) (env : FrameId) :
    ComposedIn P fun self => Run.Expansion.wholly self rounds form env := by
  simp only [Run.Expansion.wholly]
  cases form.isCons with
  | false => exact .pure _
  | true =>
    refine (expandHead env rounds form).bind fun form => ?_
    cases form with
    | cons id first rest => exact elements env _ first
    | _ => exact .pure _

/-! #### Reading -/

theorem nextForm (mode : Mode) {env : FrameId} (henv : P env) :
    ReadComposedIn P fun self => self.form mode env :=
  ReadComposedOf.token.bind fun token source => .call (.parse token mode env source) henv

theorem atom (name : String) (env : FrameId) :
    ComposedIn P fun _ => Run.Parsing.atom name env := by
  refine (intern env name).bind fun symbol => ?_
  rcases symbol.keyword with - | k
  · exact .pure _
  · cases k <;> exact .pure _

theorem quoted (v : Value) (env : FrameId) :
    ComposedIn P fun _ => Run.Parsing.quoted v env :=
  (intern env _).bind fun _ => ComposedOf.ofFresh _

theorem defineExpander (items : List Value) {env : FrameId} (henv : P env) :
    ComposedIn P fun _ => Run.Parsing.defineExpander items env := by
  match items with
  | _ :: name :: params :: forms =>
    refine (ComposedOf.ofExcept name.expectSymbol).bind fun symbol => ?_
    refine (makeClosure (some symbol) params forms env).bind fun c => ?_
    exact (ComposedOf.change (.bindExpander symbol c.index henv)).bind fun _ => .pure _
  | [] | [_] | [_, _] => exact .throw _

theorem codeList (items : List Value) {env : FrameId} (henv : P env) :
    ComposedIn P fun self => Run.Parsing.codeList self items env := by
  match items with
  | .symbol head :: rest =>
    simp only [Run.Parsing.codeList]
    cases head.is .macroDef with
    | true => exact defineExpander _ henv
    | false =>
      refine (ComposedOf.ofFresh _).bind fun form => ?_
      refine (ComposedOf.read (f := fun s => s.expander? env head) fun _ _ => rfl).bind fun x => ?_
      cases x with
      | none => exact .pure _
      | some _ => exact .call (.expand form env) trivial
  | [] => exact ComposedOf.ofFresh (Fresh.list [])
  | .nil :: _ | .t :: _ | .number _ :: _ | .text .. :: _ | .cons .. :: _ | .function _ :: _ =>
    exact ComposedOf.ofFresh (Fresh.list _)

theorem listElements (mode : Mode) {env : FrameId} (henv : P env) (bound : Source)
    (items : Array Value) :
    ReadComposedIn P fun self => Run.Parsing.elements self mode env bound items := by
  induction bound generalizing items with
  | nil => exact ReadComposedOf.throw _
  | cons c bound ih =>
    refine ReadComposedOf.token.bind fun token => ?_
    have hgo : ReadComposedIn P fun self => (self.parse token (mode.inside items) env >>= fun v =>
        Run.Parsing.elements self mode env bound (items.push v)) :=
      ReadComposedOf.bind (fun source => .call (.parse token (mode.inside items) env source) henv)
        fun v => ih (items.push v)
    cases token with
    | rightParen => exact ReadComposedOf.pure _
    | endOfInput => exact ReadComposedOf.throw _
    | _ => exact hgo

theorem list (mode : Mode) {env : FrameId} (henv : P env) :
    ReadComposedIn P fun self => Run.Parsing.list self mode env := by
  refine ReadComposedOf.get.bind fun source => ?_
  refine (listElements mode henv source #[]).bind fun items => ?_
  cases mode with
  | data => exact ReadComposedOf.ofRun (ComposedOf.ofFresh _)
  | code => exact ReadComposedOf.ofRun (codeList items henv)

theorem reading (token : Token) (mode : Mode) {env : FrameId} (henv : P env) :
    ReadComposedIn P fun self => Run.Parsing.form self token mode env := by
  cases token with
  | leftParen => exact list mode henv
  | rightParen | endOfInput => exact ReadComposedOf.throw _
  | quote =>
    refine (nextForm .data henv).bind fun v => ?_
    exact ReadComposedOf.ofRun (quoted v env)
  | number x => exact ReadComposedOf.pure _
  | text content => exact ReadComposedOf.ofRun (ComposedOf.ofFresh _)
  | symbol name => exact ReadComposedOf.ofRun (atom name env)

theorem evaluateFrom {env : FrameId} (henv : P env) (fuel : Nat) (result : Value)
    (source : Source) :
    ComposedIn P fun self => Run.evaluateFrom self env fuel result source := by
  induction fuel generalizing result source with
  | zero => exact .throw _
  | succ fuel ih =>
    simp only [Run.evaluateFrom]
    cases source.skip.isEmpty with
    | true => exact .pure _
    | false =>
      refine (nextForm .code henv source.skip).bind fun p => ?_
      refine (ComposedOf.ofExcept p.1).bind fun form => ?_
      exact (ComposedOf.call (.eval form env) trivial).bind fun v => ih v p.2

theorem evaluate {env : FrameId} (henv : P env) (source : Source) :
    ComposedIn P fun self => Run.evaluate self env source :=
  evaluateFrom henv _ _ _

/-! #### Programs of the host -/

theorem program {p : HostProgram} (hp : p.ReadsIn P) :
    ComposedIn P fun self => Run.program self p := by
  -- one request after the other: host programs are made of the same parts
  induction p with
  | done v => exact .pure v
  | fail f => exact .throw _
  | list items next ih => exact (ComposedOf.ofFresh _).bind fun v => ih v (hp v)
  | text content next ih => exact (ComposedOf.ofFresh _).bind fun v => ih v (hp v)
  | isGlobal env next ih => exact (ComposedOf.read fun _ _ => rfl).bind fun b => ih b (hp b)
  | boundSymbols env next ih => exact (ComposedOf.read fun _ _ => rfl).bind fun l => ih l (hp l)
  | define env s v next ih => exact (define env s v).observe.bind fun r => ih r (hp r)
  | eval form env next ih =>
    exact (ComposedOf.call (.eval form env) trivial).observe.bind fun r => ih r (hp r)
  | apply f args env next ih =>
    exact (ComposedOf.call (.apply f args env) trivial).observe.bind fun r => ih r (hp r)
  | evaluate global content next ih =>
    exact (evaluate hp.1 _).observe.bind fun r => ih r (hp.2 r)
  | emit channel content next ih =>
    exact (ComposedOf.call (.emit channel content) trivial).bind fun _ => ih hp
  | subscribe channel react next _ ih =>
    exact (ComposedOf.change (.subscribe channel hp.1)).bind fun _ => ih hp.2
  | note line next ih => exact (ComposedOf.change (.note line)).bind fun _ => ih hp

/-! #### Functions -/

theorem unary {f : Recur → Value → Run Value} (hf : ∀ v, ComposedIn P fun self => f self v)
    (name : String) (args : List Value) :
    ComposedIn P fun self => Run.unary name args (f self) := by
  match args with
  | [v] => exact hf v
  | [] | _ :: _ :: _ => exact .throw _

theorem binary {f : Recur → Value → Value → Run Value}
    (hf : ∀ v w, ComposedIn P fun self => f self v w) (name : String) (args : List Value) :
    ComposedIn P fun self => Run.binary name args (f self) := by
  match args with
  | [v, w] => exact hf v w
  | [] | [_] | _ :: _ :: _ :: _ => exact .throw _

theorem reduceElements (f : Function) (env : FrameId) (elements : List Value) :
    ComposedIn P fun self => Run.reduceElements self f env elements := by
  cases elements with
  | nil => exact .pure _
  | cons first rest =>
    exact ComposedOf.foldlM (fun v w => .call (.apply f [v, w] env) trivial) first rest

/-- A primitive that neither uses ports nor is a function of the host gets no frame to read in. -/
theorem primitive (rounds : Nat) (name : String) {p : Primitive} (hp : p.isCore = true)
    (args : List Value) (env : FrameId) :
    ComposedIn P fun self => Run.primitive self rounds name p args env := by
  cases p with
  -- primitives that make values, and make no calls
  | list => exact ComposedOf.ofFresh (Fresh.list args)
  | fold op => exact ComposedOf.ofFresh (op.fold args)
  | range => exact ComposedOf.ofFresh (Value.range args)
  | substring => exact ComposedOf.ofFresh (Value.substring args)
  | isNil | isCons | isSymbol | isNumber | isText | isFunction | isMarker _ =>
    exact unary (fun v => .pure _) name args
  | car | cdr | length => exact unary (fun v => ComposedOf.ofExcept _) name args
  | reverse => exact unary (fun v => ComposedOf.ofFresh _) name args
  | cons => exact binary (fun v w => ComposedOf.ofFresh _) name args
  | eq | equal => exact binary (fun v w => .pure _) name args
  | map =>
    -- a call for every element
    refine binary (fun v w => ?_) name args
    refine (ComposedOf.ofExcept (v.expectFunction "map")).bind fun f => ?_
    refine (ComposedOf.ofFresh w.elements).bind fun elements => ?_
    refine (ComposedOf.mapM (fun x => .call (.apply f [x] env) trivial) elements).bind
      fun results => ?_
    exact ComposedOf.ofFresh _
  | filter =>
    refine binary (fun v w => ?_) name args
    refine (ComposedOf.ofExcept (v.expectFunction "filter")).bind fun f => ?_
    refine (ComposedOf.ofFresh w.elements).bind fun elements => ?_
    refine (ComposedOf.filterM (fun x => ?_) elements).bind fun kept => ComposedOf.ofFresh _
    exact (ComposedOf.call (.apply f [x] env) trivial).bind fun _ => .pure _
  | reduce =>
    refine binary (fun v w => ?_) name args
    refine (ComposedOf.ofExcept (v.expectFunction "reduce")).bind fun f => ?_
    refine (ComposedOf.ofFresh w.elements).bind fun elements => ?_
    exact reduceElements f env elements
  | gensym => exact (ComposedOf.update (.generateSymbol env)).bind fun _ => .pure _
  | print channel =>
    -- the text is delivered by a call
    refine unary (fun v => ?_) name args
    exact (ComposedOf.call (.emit channel v.print) trivial).bind fun _ => .pure _
  | apply =>
    refine binary (fun v w => ?_) name args
    cases v with
    | function f =>
      exact (ComposedOf.ofExcept w.listItems).bind fun items => .call (.apply f items env) trivial
    | _ => exact .throw _
  | eval =>
    refine unary (fun v => ?_) name args
    refine (global env).bind fun env => ?_
    exact (ComposedOf.call (.expand v env) trivial).bind fun form => .call (.eval form env) trivial
  | expandOnce => exact unary (fun v => (once? v env).bind fun _ => .pure _) name args
  | expandHead => exact unary (fun v => expandHead env rounds v) name args
  -- the primitives on ports and those of the host are no core primitives
  | openPort _ | readPort _ _ | closePort _ | host _ => cases hp

end ComposedOf

/-! ### Ports -/

/-- The whole number from zero on that a value is. -/
def Value.index? : Value → Option Nat
  | .number x => Number.index? x
  | _ => none

theorem Value.expectIndex_eq (operation : String) (v : Value) :
    v.expectIndex operation =
      match v.index? with
      | some n => .ok n
      | none => .error (.refused operation [v]) := by
  cases v <;> rfl

theorem Value.index?_of_expectIndex {operation : String} {v : Value} {n : Nat}
    (h : v.expectIndex operation = .ok n) : v.index? = some n := by
  rw [Value.expectIndex_eq] at h
  cases hv : v.index? with
  | some m =>
    rw [hv] at h
    rw [Except.ok.inj h]
  | none =>
    rw [hv] at h
    cases h

/-- The table and the number of the port that a call of a primitive reads from or closes. -/
def Primitive.port? : Primitive → List Value → Option (Nat × Nat)
  | .readPort table _, [v] | .closePort table, [v] => v.index?.map (table, ·)
  | _, _ => none

/-- The table and the number of the port that a call reads from or closes. -/
def Call.port? : Call α → Option (Nat × Nat)
  | .apply (.native n) args _ =>
    match n.arity.check n.name args.length with
    | .ok _ => n.body.port? args
    | .error _ => none
  | _ => none

namespace Composed

protected theorem call (c : Call α) : Composed O fun self => self c := ComposedOf.call c trivial

protected theorem observe {m : Recur → Run α} (h : Composed O m) :
    Composed O fun self => Run.observe (m self) := ComposedOf.observe h

theorem mono (hO : ∀ {α : Type} {f : Store → α × Store}, O f → O' f) {m : Recur → Run α}
    (h : Composed O m) : Composed O' m := ComposedOf.mono hO h

protected theorem mapM {f : Recur → α → Run β} (h : ∀ a, Composed O fun self => f self a)
    (xs : List α) : Composed O fun self => xs.mapM (f self) := ComposedOf.mapM h xs

theorem of_in {m : Recur → Run α} (h : ComposedIn (fun _ => True) m) : Composed Operates m :=
  h.forget.mono OperatesIn.forget

theorem on_of_in {m : Recur → Run α} (h : ComposedIn (fun _ => True) m) :
    Composed (OperatesOn T) m :=
  h.forget.mono OperatesOn.operates

theorem apart_of_in {m : Recur → Run α} (h : ComposedIn (fun _ => True) m) :
    Composed OperatesApart m :=
  h.forget.mono OperatesApart.operates

theorem expandHead (env : FrameId) (rounds : Nat) (form : Value) :
    Composed Operates fun self => Run.Expansion.head self env rounds form :=
  of_in (ComposedOf.expandHead env rounds form)

theorem elements (env : FrameId) (form first : Value) :
    Composed Operates fun self => Run.Expansion.elements self env form first :=
  of_in (ComposedOf.elements env form first)

theorem program (p : HostProgram) : Composed Operates fun self => Run.program self p :=
  of_in (ComposedOf.program p.readsIn_true)

/-! #### Deliveries -/

theorem deliver (channel i : Nat) (content : String) :
    Composed OperatesApart fun self => Run.deliver self channel i content := by
  have hidle := apart_of_in <|
    ComposedOf.read (f := fun s => s.idleSubscriber? channel i) fun _ _ => rfl
  refine hidle.bind fun x => ?_
  cases x with
  | none => exact .pure ()
  | some x =>
    refine (ComposedOf.change (.setBusy channel i true)).bind fun _ => ?_
    have hprogram := ComposedOf.program (x.react content).readsIn_true
    refine (apart_of_in hprogram).observe.bind fun _ => ?_
    exact ComposedOf.change (.setBusy channel i false)

theorem emit (channel : Nat) (content : String) :
    Composed OperatesApart fun self => Run.emit self channel content := by
  have hcount := apart_of_in <|
    ComposedOf.read (f := fun s => s.subscriberCount channel) fun _ _ => rfl
  refine hcount.bind fun count => ?_
  exact ComposedOf.forM (fun i => deliver channel i content) (List.range count)

/-! #### Ports -/

theorem takePort {table : Nat} (operation : String) {v : Value}
    (h : ∀ port, v.index? = some port → T (table, port)) :
    Composed (OperatesOn T) fun _ => Run.Port.take table operation v := by
  refine ComposedOf.bind_ofExcept fun port hport => ?_
  have hT := h port (Value.index?_of_expectIndex hport)
  refine (ComposedOf.update (OperatesOn.source? hT)).bind fun x => ?_
  cases x with
  | none => exact .throw _
  | some source =>
    exact (ComposedOf.change (.remove hT)).bind fun _ => .pure _

theorem openFile (table : Nat) (v : Value) :
    Composed (OperatesOn T) fun _ => Run.Port.openFile table v := by
  refine ComposedOf.bind_ofExcept fun path _ => ?_
  refine (ComposedOf.update (.readFile path)).bind fun x => ?_
  cases x with
  | error e => exact .throw _
  | ok content => exact (ComposedOf.update (.openPort table _)).bind fun _ => .pure _

theorem closePort {table : Nat} {v : Value} (h : ∀ port, v.index? = some port → T (table, port)) :
    Composed (OperatesOn T) fun _ => Run.Port.close table v :=
  (takePort _ h).bind fun _ => .pure _

theorem nextFromPort {table : Nat} (marker : Symbol) {v : Value} (env : FrameId)
    (h : ∀ port, v.index? = some port → T (table, port)) :
    Composed (OperatesOn T) fun self => Run.Port.next self table marker v env := by
  simp only [Run.Port.next, Run.Port.take, bind_assoc]
  refine ComposedOf.bind_ofExcept fun port hport => ?_
  have hT := h port (Value.index?_of_expectIndex hport)
  refine (ComposedOf.update (OperatesOn.source? hT)).bind fun x => ?_
  -- a port that is not open is refused; an open one is taken away while a form is read
  cases x with
  | none => exact .throw _
  | some source =>
    simp only [bind_assoc, pure_bind]
    refine (ComposedOf.change (.remove hT)).bind fun _ => ?_
    -- nothing is left, or a form is read; then the port is put back
    cases source.skip.isEmpty with
    | true => exact (ComposedOf.change (.putBack _ hT)).bind fun _ => .pure _
    | false =>
      refine (on_of_in (ComposedOf.global env)).bind fun env => ?_
      refine (on_of_in (ComposedOf.nextForm .code trivial source.skip)).bind fun p => ?_
      exact (ComposedOf.change (.putBack _ hT)).bind fun _ => ComposedOf.ofExcept p.1

/-! #### Functions -/

theorem primitive (rounds : Nat) (name : String) (p : Primitive) (args : List Value)
    (env : FrameId) (h : ∀ port, p.port? args = some port → T port) :
    Composed (OperatesOn T) fun self => Run.primitive self rounds name p args env := by
  -- what is no core primitive operates on ports or runs a program of the host
  cases hp : p.isCore with
  | true => exact on_of_in (ComposedOf.primitive rounds name hp args env)
  | false =>
    cases p with
    | openPort table =>
      match args with
      | [v] => exact openFile table v
      | [] | _ :: _ :: _ => exact .throw _
    | readPort table marker =>
      match args with
      | [v] =>
        exact nextFromPort marker env fun port hport =>
          h (table, port) (congrArg (Option.map (table, ·)) hport)
      | [] | _ :: _ :: _ => exact .throw _
    | closePort table =>
      match args with
      | [v] =>
        exact closePort fun port hport => h (table, port) (congrArg (Option.map (table, ·)) hport)
      | [] | _ :: _ :: _ => exact .throw _
    | host index =>
      -- the call is counted, and the program is run if there is one
      have hcount := ComposedOf.update (C := CallsIn fun _ => True)
        (OperatesIn.countCall (P := fun _ => True) index)
      refine (on_of_in hcount).bind fun x => ?_
      rcases x with - | p
      · exact .pure _
      · exact on_of_in (ComposedOf.program (p.1 p.2 args env).readsIn_true)
    | _ => cases hp

theorem apply (rounds : Nat) (f : Function) (args : List Value) (env : FrameId)
    (h : ∀ port, (Call.apply f args env).port? = some port → T port) :
    Composed (OperatesOn T) fun self => Run.apply self rounds f args env := by
  cases f with
  | native n =>
    refine ComposedOf.bind_ofExcept fun _ hchecked => ?_
    refine primitive rounds n.name n.body args env fun port hport => h port ?_
    have hcheck : n.arity.check n.name args.length = .ok () := hchecked
    simp only [Call.port?, hcheck, hport]
  | closure c => exact on_of_in (ComposedOf.callClosure c.index args)

end Composed

/-- Whether a call delivers a text. -/
def Call.isEmit : Call α → Bool
  | .emit .. => true
  | _ => false

/-- What an activity does takes out and puts back the port that it is called with, and no other. -/
theorem perform_composed_on (rounds : Nat) (c : Call α) (h : c.isEmit = false)
    (hT : ∀ port, c.port? = some port → T port) :
    Composed (OperatesOn T) fun self => perform self rounds c := by
  cases c with
  | eval form env => exact Composed.on_of_in (ComposedOf.evaluation rounds form env)
  | apply f args env => exact Composed.apply rounds f args env hT
  | expand form env => exact Composed.on_of_in (ComposedOf.wholly rounds form env)
  | parse token mode env source =>
    exact Composed.on_of_in (ComposedOf.reading token mode trivial source)
  | emit channel content => cases h

/-- What an activity does is composed, and only deliveries tell whether programs are running. -/
theorem perform_composed (rounds : Nat) (c : Call α) (h : c.isEmit = false) :
    Composed Operates fun self => perform self rounds c :=
  (perform_composed_on (T := fun _ => True) rounds c h fun _ _ => trivial).mono
    OperatesOn.forget

theorem perform_composed_or_marks (rounds : Nat) (c : Call α) :
    Composed OperatesOrMarks fun self => perform self rounds c := by
  cases hc : c.isEmit with
  | false => exact (perform_composed rounds c hc).mono .operates
  | true =>
    cases c with
    | emit channel content => exact (Composed.emit channel content).mono OperatesApart.forget
    | _ => cases hc

/-! ### What the interpreter leads to -/

/-- A way from a store to another that all operations of a kind go, and that can be gone step by
step. -/
structure Leads (O : Kind) (R : Store → Store → Prop) : Prop where
  refl : ∀ s, R s s
  trans : ∀ {s t u}, R s t → R t u → R s u
  operation : ∀ {α : Type} {f : Store → α × Store}, O f → ∀ s, R s (f s).2

variable {R : Store → Store → Prop}

namespace Leads

theorem update (hR : Leads O R) {f : Store → α × Store} (hf : O f) (s : Store) :
    R s (Run.update f s).2 := hR.operation hf s

theorem bind (hR : Leads O R) {m : Run α} {k : α → Run β} (hm : ∀ s, R s (m s).2)
    (hk : ∀ a s, R s (k a s).2) (s : Store) : R s ((m >>= k) s).2 := by
  have hfirst := hm s
  rw [Run.bind_apply]
  rcases hms : m s with ⟨e | a, t⟩ <;> rw [hms] at hfirst
  · exact hfirst
  · exact hR.trans hfirst (hk a t)

theorem observe {m : Run α} (hm : ∀ s, R s (m s).2) (s : Store) : R s (m.observe s).2 := by
  have hbody := hm s
  rw [Run.observe_apply]
  rcases hms : m s with ⟨(f | _) | a, t⟩ <;> rw [hms] at hbody <;> exact hbody

end Leads

/-- Where the calls of an activity lead, the activity leads, however it ends. -/
theorem ComposedOf.leads {m : Recur → Run α} (h : ComposedOf O C m) (hR : Leads O R) {self : Recur}
    (hself : ∀ {α : Type} (c : Call α), C c → ∀ s, R s (self c s).2) (s : Store) :
    R s (m self s).2 := by
  induction h generalizing s with
  | pure a | throw e => exact hR.refl s
  | update hf => exact hR.operation hf s
  | call c hc => exact hself c hc s
  | bind _ _ ih ihk => exact hR.bind ih ihk s
  | observe _ ih => exact Leads.observe ih s

theorem Composed.leads {m : Recur → Run α} (h : Composed O m) (hR : Leads O R) {self : Recur}
    (hself : ∀ {α : Type} (c : Call α) s, R s (self c s).2) (s : Store) : R s (m self s).2 :=
  ComposedOf.leads h hR (fun c _ s => hself c s) s

/-- Where the operations that activities are composed of and the nested steps lead, the interpreter
leads. -/
theorem run_leads_of {rounds : Nat}
    (hperform : ∀ {α : Type} (c : Call α), Composed O fun self => perform self rounds c)
    (hR : Leads O R) (hdeepen : ∀ s env, R s (s.deepen env))
    (hrise : ∀ s realm, R s (s.riseIn realm)) (calls : Nat) (c : Call α) (s : Store) :
    R s (run rounds calls c s).2 := by
  -- on the calls: whatever they make, what leads to it is transitive
  induction calls generalizing α s with
  | zero => exact hR.refl s
  | succ calls ih =>
    have hbody := fun t => (hperform c).leads hR (fun c s => ih c s) t
    show R s (c.nested (perform (run rounds calls) rounds c) s).2
    unfold Call.nested
    -- no nested step, one that is refused, or one that is taken and given back
    split
    · exact hbody s
    · next env _ =>
      split
      · exact hR.refl s
      · exact hR.trans (hdeepen s env) (hR.trans (hbody _) (hrise _ _))

/-- Where all operations and the nested steps lead, the interpreter leads. -/
theorem run_leads (hR : Leads OperatesOrMarks R) (hdeepen : ∀ s env, R s (s.deepen env))
    (hrise : ∀ s realm, R s (s.riseIn realm)) (rounds calls : Nat) (c : Call α) (s : Store) :
    R s (run rounds calls c s).2 :=
  run_leads_of (perform_composed_or_marks rounds) hR hdeepen hrise calls c s

/-! ### Activities that agree -/

/-- From stores with a property two runs do the same, and the property lasts unless they end
unfinished. -/
def Agrees (J : Store → Prop) (m m' : Run α) : Prop :=
  ∀ s, J s → m' s = m s ∧ ((m s).1 ≠ .error .unfinished → J (m s).2)

variable {J : Store → Prop}

namespace Agrees

protected theorem bind {m m' : Run α} {k k' : α → Run β} (h : Agrees J m m')
    (hk : ∀ a, Agrees J (k a) (k' a)) : Agrees J (m >>= k) (m' >>= k') := by
  intro s hs
  obtain ⟨heq, hkeeps⟩ := h s hs
  rw [Run.bind_apply, Run.bind_apply, heq]
  rcases hm : m s with ⟨e | a, t⟩ <;> rw [hm] at hkeeps
  · exact ⟨rfl, fun he => hkeeps fun h => he (congrArg _ (Except.error.inj h))⟩
  · exact hk a t (hkeeps nofun)

protected theorem observe {m m' : Run α} (h : Agrees J m m') :
    Agrees J (Run.observe m) (Run.observe m') := by
  intro s hs
  obtain ⟨heq, hkeeps⟩ := h s hs
  rw [Run.observe_apply, Run.observe_apply, heq]
  rcases hm : m s with ⟨(f | _) | a, t⟩ <;> rw [hm] at hkeeps
  · exact ⟨rfl, fun _ => hkeeps nofun⟩
  · exact ⟨rfl, fun h => (h rfl).elim⟩
  · exact ⟨rfl, fun _ => hkeeps nofun⟩

/-- Nested steps do not come between runs that agree. -/
theorem nested (c : Call α) {m m' : Run α} (h : Agrees J m m')
    (hdeepen : ∀ s env, J s → J (s.deepen env)) (hrise : ∀ s realm, J s → J (s.riseIn realm)) :
    Agrees J (c.nested m) (c.nested m') := by
  intro s hs
  unfold Call.nested
  split
  · exact h s hs
  · next env _ =>
    split
    · exact ⟨rfl, fun _ => hs⟩
    · obtain ⟨heq, hkeeps⟩ := h _ (hdeepen s env hs)
      exact ⟨by rw [heq], fun hr => hrise _ _ (hkeeps hr)⟩

end Agrees

/-- Activities agree if their calls do, and their operations keep the property. -/
theorem ComposedOf.agrees {m : Recur → Run α} (h : ComposedOf O C m)
    (hJ : ∀ {α : Type} {f : Store → α × Store}, O f → ∀ s, J s → J (f s).2) {self self' : Recur}
    (hself : ∀ {α : Type} (c : Call α), C c → Agrees J (self c) (self' c)) :
    Agrees J (m self) (m self') := by
  induction h with
  | pure a | throw e => exact fun s hs => ⟨rfl, fun _ => hs⟩
  | update hf => exact fun s hs => ⟨rfl, fun _ => hJ hf s hs⟩
  | call c hc => exact hself c hc
  | bind _ _ ih ihk => exact ih.bind ihk
  | observe _ ih => exact ih.observe

theorem Composed.agrees {m : Recur → Run α} (h : Composed O m)
    (hJ : ∀ {α : Type} {f : Store → α × Store}, O f → ∀ s, J s → J (f s).2) {self self' : Recur}
    (hself : ∀ {α : Type} (c : Call α), Agrees J (self c) (self' c)) :
    Agrees J (m self) (m self') :=
  ComposedOf.agrees h hJ fun c _ => hself c

/-! ### Activities that coincide -/

/-- From stores with a property two runs do the same, and the property lasts, however they end. -/
def Coincides (J : Store → Prop) (m m' : Run α) : Prop := ∀ s, J s → m' s = m s ∧ J (m s).2

namespace Coincides

protected theorem bind {m m' : Run α} {k k' : α → Run β} (h : Coincides J m m')
    (hk : ∀ a, Coincides J (k a) (k' a)) : Coincides J (m >>= k) (m' >>= k') := by
  intro s hs
  obtain ⟨heq, hkept⟩ := h s hs
  rw [Run.bind_apply, Run.bind_apply, heq]
  rcases hm : m s with ⟨e | a, t⟩ <;> rw [hm] at hkept
  · exact ⟨rfl, hkept⟩
  · exact hk a t hkept

/-- What comes after reading knows where it was read. -/
theorem bind_read {f f' : Store → α} {k k' : α → Run β} (hf : ∀ s, J s → f' s = f s)
    (hk : ∀ s, J s → Coincides J (k (f s)) (k' (f s))) :
    Coincides J (Run.read f >>= k) (Run.read f' >>= k') := by
  intro s hs
  rw [Run.bind_apply_ok (Run.read_apply f s), Run.bind_apply_ok (Run.read_apply f' s), hf s hs]
  exact hk s hs s hs

protected theorem observe {m m' : Run α} (h : Coincides J m m') :
    Coincides J (Run.observe m) (Run.observe m') := by
  intro s hs
  obtain ⟨heq, hkept⟩ := h s hs
  rw [Run.observe_apply, Run.observe_apply, heq]
  rcases hm : m s with ⟨(f | _) | a, t⟩ <;> rw [hm] at hkept <;> exact ⟨rfl, hkept⟩

/-- Nested steps do not come between runs that coincide. -/
theorem nested (c : Call α) {m m' : Run α} (h : Coincides J m m')
    (hdeepen : ∀ s env, J s → J (s.deepen env)) (hrise : ∀ s realm, J s → J (s.riseIn realm)) :
    Coincides J (c.nested m) (c.nested m') := by
  intro s hs
  unfold Call.nested
  split
  · exact h s hs
  · next env _ =>
    split
    · exact ⟨rfl, hs⟩
    · obtain ⟨heq, hkept⟩ := h _ (hdeepen s env hs)
      exact ⟨by rw [heq], hrise _ _ hkept⟩

end Coincides

/-- Activities coincide if their calls do, and their operations keep the property. -/
theorem ComposedOf.coincides {m : Recur → Run α} (h : ComposedOf O C m)
    (hJ : ∀ {α : Type} {f : Store → α × Store}, O f → ∀ s, J s → J (f s).2) {self self' : Recur}
    (hself : ∀ {α : Type} (c : Call α), C c → Coincides J (self c) (self' c)) :
    Coincides J (m self) (m self') := by
  induction h with
  | pure a | throw e => exact fun s hs => ⟨rfl, hs⟩
  | update hf => exact fun s hs => ⟨rfl, hJ hf s hs⟩
  | call c hc => exact hself c hc
  | bind _ _ ih ihk => exact ih.bind ihk
  | observe _ ih => exact ih.observe

end PocketLisp
