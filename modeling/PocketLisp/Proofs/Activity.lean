/-
PocketLisp/Proofs/Activity.lean

Evaluating, expanding and reading, each compared with itself: if the calls
that two of these activities make go in lockstep (`RecurLockstep`), so do the
activities (`Lockstep.evaluation`, `Lockstep.wholly`, `Lockstep.reading`).
The second may have more rounds for its loops.

Functions, programs of the host and the interpreter as a whole are in
`PocketLisp.Proofs.RunLockstep`.
-/
import PocketLisp.Proofs.Lockstep

namespace PocketLisp

variable {α β : Type} {P : Pairing}

namespace Pairing

/-- The ends of a call that cut it off.  What subscribers do cuts nothing off. -/
def Ends (P : Pairing) : {α : Type} → Call α → Except Stop α → Prop
  | _, .eval .. | _, .apply .. | _, .expand .. => P.Stopped
  | _, .parse .. => P.StoppedReading
  | _, .emit .. => P.Unfinished

/-- The second run has as many rounds for its loops as the first, or more. -/
def Rounds (P : Pairing) (rounds rounds' : Nat) : Prop :=
  rounds = rounds' ∨ P.cut .unfinished ∧ rounds ≤ rounds'

theorem Rounds.cases {rounds rounds' : Nat} (h : P.Rounds rounds rounds') :
    (rounds = 0 ∧ (rounds' = 0 ∨ P.cut .unfinished)) ∨
      ∃ n n', rounds = n + 1 ∧ rounds' = n' + 1 ∧ P.Rounds n n' := by
  -- a loop whose rounds are used up is cut off, unless the other has none left either
  cases rounds with
  | zero =>
    rcases h with h | ⟨hc, -⟩
    · exact .inl ⟨rfl, .inl h.symm⟩
    · exact .inl ⟨rfl, .inr hc⟩
  | succ n =>
    cases rounds' with
    | zero =>
      rcases h with h | ⟨-, h⟩
      · exact absurd h (by omega)
      · exact absurd h (by omega)
    | succ n' =>
      refine .inr ⟨n, n', rfl, rfl, ?_⟩
      rcases h with h | ⟨hc, h⟩
      · exact .inl (by omega)
      · exact .inr ⟨hc, by omega⟩

end Pairing

/-- The calls that two runs make go in lockstep. -/
def RecurLockstep (P : Pairing) (self self' : Recur) : Prop :=
  ∀ {α : Type} (c : Call α), Lockstep P (P.Ends c) (self c) (self' c)

namespace Lockstep

/-! ### Names -/

theorem intern (env : FrameId) (name : String) :
    Lockstep P P.Stopped (Run.intern env name) (Run.intern env name) :=
  Lockstep.update (Store.harmless_intern env name)

theorem global (env : FrameId) : Lockstep P P.Stopped (Run.global env) (Run.global env) :=
  Lockstep.read (Store.unseen_global env)

theorem get (env : FrameId) (symbol : Symbol) :
    Lockstep P P.Stopped (Run.get env symbol) (Run.get env symbol) :=
  (Lockstep.read (Store.unseen_valueOf env symbol)).bind fun x => Lockstep.ofExcept x

/-- Binding a symbol ends in the same way in both runs, and is never cut off. -/
theorem bindIn {place : Store → Except Fault FrameId} (hp : Store.Unseen place) (symbol : Symbol)
    (v : Value) {m : Run Unit}
    (hm : m = (Run.read place >>= fun x => Run.ofExcept x >>= fun i =>
      Run.change fun s => s.bindAt i symbol v)) :
    Lockstep P (fun _ => False) m m := by
  rw [hm]
  have hread : Lockstep P (fun _ => False) _ _ := Lockstep.read hp
  refine hread.bind_of (fun x => ?_) (fun _ => id) fun _ => id
  have hplace : Lockstep P (fun _ => False) _ _ := Lockstep.ofExcept x
  refine hplace.bind_of (fun i => ?_) (fun _ => id) fun _ => id
  exact Lockstep.change (Store.harmless_bindAt i symbol v)

theorem define (env : FrameId) (symbol : Symbol) (v : Value) :
    Lockstep P (fun _ => False) (Run.define env symbol v) (Run.define env symbol v) :=
  bindIn (Store.unseen_definePlace env symbol) symbol v rfl

theorem assign (env : FrameId) (symbol : Symbol) (v : Value) :
    Lockstep P (fun _ => False) (Run.assign env symbol v) (Run.assign env symbol v) :=
  bindIn (Store.unseen_assignPlace env symbol) symbol v rfl

theorem never {free : Except Stop α → Prop} {m m' : Run α} (h : Lockstep P (fun _ => False) m m') :
    Lockstep P free m m' := h.mono False.elim

/-! ### Closures -/

theorem makeClosure (name : Option Symbol) (params : Value) (forms : List Value) (env : FrameId) :
    Lockstep P P.Stopped (Run.makeClosure name params forms env)
      (Run.makeClosure name params forms env) := by
  refine (Lockstep.ofExcept (Parameters.ofValue params)).bind fun ps => ?_
  refine (Lockstep.update (Store.harmless_addClosure _)).bind fun index => ?_
  exact Lockstep.pure _

theorem bindAll (env : FrameId) (names : List Symbol) (args : List Value) :
    Lockstep P P.Stopped (Run.bindAll env names args) (Run.bindAll env names args) := by
  induction names generalizing args with
  | nil => exact Lockstep.pure _
  | cons s ss ih =>
    cases args with
    | nil => exact Lockstep.pure _
    | cons v vs => exact (define env s v).never.bind fun _ => ih vs

section Activities

variable {self self' : Recur} (h : RecurLockstep P self self')
include h

theorem body (forms : List Value) (env : FrameId) :
    Lockstep P P.Stopped (Run.body self forms env) (Run.body self' forms env) :=
  Lockstep.foldlM (fun _ form => h (.eval form env)) .nil forms

theorem callClosure (index : Nat) (args : List Value) :
    Lockstep P P.Stopped (Run.callClosure self index args) (Run.callClosure self' index args) := by
  refine (Lockstep.read (Store.unseen_closure index)).bind fun c => ?_
  cases hf : c.params.fault? c.displayName args.length with
  | some f => exact Lockstep.throw _
  | none =>
    refine (Lockstep.update (Store.harmless_extend c.env)).bind fun env => ?_
    refine (bindAll env c.params.positional args).bind fun _ => ?_
    cases hrest : c.params.rest with
    | none => exact (Lockstep.pure ()).bind fun _ => body h c.body env
    | some name =>
      refine (Lockstep.ofFresh _).bind fun v => ?_
      exact (define env name v).never.bind fun _ => body h c.body env

/-! ### Evaluation -/

theorem whileTrue (condition : Value) (forms : List Value) (env : FrameId) {rounds rounds' : Nat}
    (hr : P.Rounds rounds rounds') :
    Lockstep P P.Stopped (Run.whileTrue self condition forms env rounds)
      (Run.whileTrue self' condition forms env rounds') := by
  -- on the rounds; what is left of them is still enough for the second loop
  induction rounds generalizing rounds' with
  | zero =>
    rcases hr.cases with ⟨-, rfl | hc⟩ | ⟨n, n', hn, -⟩
    · exact Lockstep.throw _
    · -- the first loop has used up its rounds, which leaves the second free
      exact fun _ _ _ => .inl hc
    · exact absurd hn (by omega)
  | succ n ih =>
    rcases hr.cases with ⟨hn, -⟩ | ⟨m, m', hm, rfl, hr'⟩
    · exact absurd hn (by omega)
    obtain rfl : n = m := by omega
    refine (h (.eval condition env)).bind fun v => ?_
    cases v.isTrue with
    | false => exact Lockstep.pure _
    | true => exact (body h forms env).bind fun _ => ih hr'

theorem specialForm {rounds rounds' : Nat} (hr : P.Rounds rounds rounds') (form : SpecialForm)
    (head : String) (args : List Value) (env : FrameId) :
    Lockstep P P.Stopped (Run.specialForm self rounds form head args env)
      (Run.specialForm self' rounds' form head args env) := by
  -- each form is the same sequence of calls and of changes in both runs
  cases form with
  | quote =>
    match args with
    | [v] => exact Lockstep.pure _
    | [] | _ :: _ :: _ => exact Lockstep.throw _
  | ifThenElse =>
    -- the condition has the same value in both runs
    match args with
    | [condition, yes, no] =>
      refine (h (.eval condition env)).bind fun v => ?_
      cases v.isTrue with
      | true => exact h (.eval yes env)
      | false => exact h (.eval no env)
    | [] | [_] | [_, _] | _ :: _ :: _ :: _ :: _ => exact Lockstep.throw _
  | progn => exact body h args env
  | define =>
    -- a refused binding is a fault in both runs, so it is never what cuts one of them off
    match args with
    | [target, form] =>
      refine (Lockstep.ofExcept target.expectSymbol).bind fun symbol => ?_
      refine (h (.eval form env)).bind fun v => ?_
      exact (define env symbol v).never.bind fun _ => Lockstep.pure _
    | [] | [_] | _ :: _ :: _ :: _ => exact Lockstep.throw _
  | setq =>
    match args with
    | [target, form] =>
      refine (Lockstep.ofExcept target.expectSymbol).bind fun symbol => ?_
      refine (h (.eval form env)).bind fun v => ?_
      exact (assign env symbol v).never.bind fun _ => Lockstep.pure _
    | [] | [_] | _ :: _ :: _ :: _ => exact Lockstep.throw _
  | lambda =>
    match args with
    | params :: forms =>
      exact (makeClosure none params forms env).bind fun _ => Lockstep.pure _
    | [] => exact Lockstep.throw _
  | defun =>
    match args with
    | target :: params :: form :: forms =>
      refine (Lockstep.ofExcept target.expectSymbol).bind fun symbol => ?_
      refine (makeClosure (some symbol) params (form :: forms) env).bind fun c => ?_
      exact (define env symbol _).never.bind fun _ => Lockstep.pure _
    | [] | [_] | [_, _] => exact Lockstep.throw _
  | whileLoop =>
    -- the only form with rounds of its own
    match args with
    | condition :: form :: forms => exact whileTrue h condition (form :: forms) env hr
    | [] | [_] => exact Lockstep.throw _

theorem call (head tail : Value) (env : FrameId) :
    Lockstep P P.Stopped (Run.call self head tail env) (Run.call self' head tail env) := by
  refine (h (.eval head env)).bind fun v => ?_
  cases v with
  | function f =>
    refine (Lockstep.mapM (fun form => h (.eval form env)) tail.items).bind fun args => ?_
    exact h (.apply f args env)
  | _ => exact Lockstep.throw _

theorem evaluation {rounds rounds' : Nat} (hr : P.Rounds rounds rounds') (form : Value)
    (env : FrameId) :
    Lockstep P P.Stopped (Run.form self rounds form env) (Run.form self' rounds' form env) := by
  cases form with
  | symbol s => exact get env s
  | cons id head tail =>
    simp only [Run.form]
    cases Run.specialHead? head with
    | some p =>
      exact (Lockstep.ofExcept tail.listItems).bind fun args => specialForm h hr p.1 p.2 args env
    | none => exact call h head tail env
  | _ => exact Lockstep.pure _

/-! ### Expansion -/

theorem once? (form : Value) (env : FrameId) :
    Lockstep P P.Stopped (Run.Expansion.once? self form env)
      (Run.Expansion.once? self' form env) := by
  match form with
  | .cons _ (.symbol head) tail =>
    refine (Lockstep.read (Store.unseen_expander? env head)).bind fun x => ?_
    cases x with
    | none => exact Lockstep.pure _
    | some expander =>
      refine (Lockstep.ofExcept tail.listItems).bind fun args => ?_
      exact (callClosure h expander args).bind fun _ => Lockstep.pure _
  | .cons _ .nil _ | .cons _ .t _ | .cons _ (.number _) _ | .cons _ (.text ..) _
  | .cons _ (.cons ..) _ | .cons _ (.function _) _ => exact Lockstep.pure _
  | .nil | .t | .number _ | .text .. | .symbol _ | .function _ => exact Lockstep.pure _

theorem expandHead (env : FrameId) {rounds rounds' : Nat} (hr : P.Rounds rounds rounds')
    (form : Value) :
    Lockstep P P.Stopped (Run.Expansion.head self env rounds form)
      (Run.Expansion.head self' env rounds' form) := by
  -- on the rounds, as for the loop
  induction rounds generalizing rounds' form with
  | zero =>
    rcases hr.cases with ⟨-, rfl | hc⟩ | ⟨n, n', hn, -⟩
    · exact Lockstep.throw _
    · exact fun _ _ _ => .inl hc
    · exact absurd hn (by omega)
  | succ n ih =>
    rcases hr.cases with ⟨hn, -⟩ | ⟨m, m', hm, rfl, hr'⟩
    · exact absurd hn (by omega)
    obtain rfl : n = m := by omega
    refine (once? h form env).bind fun next => ?_
    cases next with
    | none => exact Lockstep.pure _
    | some next => exact ih hr' next

theorem elements (env : FrameId) (form first : Value) :
    Lockstep P P.Stopped (Run.Expansion.elements self env form first)
      (Run.Expansion.elements self' env form first) := by
  simp only [Run.Expansion.elements]
  cases keptBehind first.symbol? with
  | none => exact Lockstep.pure _
  | some kept =>
    refine (Lockstep.mapM (fun item => h (.expand item env)) _).bind fun expanded => ?_
    exact Lockstep.ofFresh _

theorem wholly {rounds rounds' : Nat} (hr : P.Rounds rounds rounds') (form : Value)
    (env : FrameId) :
    Lockstep P P.Stopped (Run.Expansion.wholly self rounds form env)
      (Run.Expansion.wholly self' rounds' form env) := by
  simp only [Run.Expansion.wholly]
  cases form.isCons with
  | false => exact Lockstep.pure _
  | true =>
    refine (expandHead h env hr form).bind fun form => ?_
    cases form with
    | cons id first rest => exact elements h env _ first
    | _ => exact Lockstep.pure _

/-! ### Reading -/

theorem parse (token : Token) (mode : Mode) (env : FrameId) :
    ReadLockstep P (self.parse token mode env) (self'.parse token mode env) :=
  fun source => h (.parse token mode env source)

theorem nextForm (mode : Mode) (env : FrameId) :
    ReadLockstep P (self.form mode env) (self'.form mode env) :=
  ReadLockstep.token.bind fun token => parse h token mode env

omit h in
theorem atom (name : String) (env : FrameId) :
    Lockstep P P.Stopped (Run.Parsing.atom name env) (Run.Parsing.atom name env) := by
  refine (intern env name).bind fun symbol => ?_
  rcases symbol.keyword with - | k
  · exact Lockstep.pure _
  · cases k <;> exact Lockstep.pure _

omit h in
theorem quoted (v : Value) (env : FrameId) :
    Lockstep P P.Stopped (Run.Parsing.quoted v env) (Run.Parsing.quoted v env) :=
  (intern env _).bind fun _ => Lockstep.ofFresh _

omit h in
theorem defineExpander (items : List Value) (env : FrameId) :
    Lockstep P P.Stopped (Run.Parsing.defineExpander items env)
      (Run.Parsing.defineExpander items env) := by
  match items with
  | _ :: name :: params :: forms =>
    refine (Lockstep.ofExcept name.expectSymbol).bind fun symbol => ?_
    refine (makeClosure (some symbol) params forms env).bind fun c => ?_
    refine (Lockstep.change (Store.harmless_bindExpander env symbol c.index)).bind fun _ => ?_
    exact Lockstep.pure _
  | [] | [_] | [_, _] => exact Lockstep.throw _

theorem codeList (items : List Value) (env : FrameId) :
    Lockstep P P.Stopped (Run.Parsing.codeList self items env)
      (Run.Parsing.codeList self' items env) := by
  match items with
  | .symbol head :: rest =>
    simp only [Run.Parsing.codeList]
    cases head.is .macroDef with
    | true => exact defineExpander _ env
    | false =>
      refine (Lockstep.ofFresh _).bind fun form => ?_
      refine (Lockstep.read (Store.unseen_expander? env head)).bind fun x => ?_
      cases x with
      | none => exact Lockstep.pure _
      | some _ => exact h (.expand form env)
  | .nil :: _ | .t :: _ | .number _ :: _ | .text .. :: _ | .cons .. :: _ | .function _ :: _
  | [] => exact Lockstep.ofFresh _

theorem listElements (mode : Mode) (env : FrameId) (bound : Source) (items : Array Value) :
    ReadLockstep P (Run.Parsing.elements self mode env bound items)
      (Run.Parsing.elements self' mode env bound items) := by
  induction bound generalizing items with
  | nil => exact ReadLockstep.throw _
  | cons c bound ih =>
    refine ReadLockstep.token.bind fun token => ?_
    have hgo : ReadLockstep P
        (self.parse token (mode.inside items) env >>= fun v =>
          Run.Parsing.elements self mode env bound (items.push v))
        (self'.parse token (mode.inside items) env >>= fun v =>
          Run.Parsing.elements self' mode env bound (items.push v)) :=
      (parse h token _ env).bind fun v => ih (items.push v)
    cases token with
    | rightParen => exact ReadLockstep.pure _
    | endOfInput => exact ReadLockstep.throw _
    | _ => exact hgo

theorem list (mode : Mode) (env : FrameId) :
    ReadLockstep P (Run.Parsing.list self mode env) (Run.Parsing.list self' mode env) := by
  refine ReadLockstep.get.bind fun source => ?_
  refine (listElements h mode env source #[]).bind fun items => ?_
  cases mode with
  | data => exact ReadLockstep.ofRun (Lockstep.ofFresh _)
  | code => exact ReadLockstep.ofRun (codeList h items env)

theorem reading (token : Token) (mode : Mode) (env : FrameId) :
    ReadLockstep P (Run.Parsing.form self token mode env)
      (Run.Parsing.form self' token mode env) := by
  cases token with
  | leftParen => exact list h mode env
  | rightParen | endOfInput => exact ReadLockstep.throw _
  | quote =>
    refine (nextForm h .data env).bind fun v => ?_
    exact ReadLockstep.ofRun (quoted v env)
  | number x => exact ReadLockstep.pure _
  | text content => exact ReadLockstep.ofRun (Lockstep.ofFresh _)
  | symbol name => exact ReadLockstep.ofRun (atom name env)

end Activities

end Lockstep

end PocketLisp
