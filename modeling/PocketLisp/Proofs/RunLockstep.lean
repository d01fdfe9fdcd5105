/-
PocketLisp/Proofs/RunLockstep.lean

The interpreter compared with itself.

If the calls that two activities make go in lockstep, so do the activities
(`perform_lockstep`), and hence two interpreters of which the second lets as
many calls be active, or more (`run_lockstep`).  The levels of the two runs
have to stay such that wherever the first run takes a nested step the second
can take it too, and where the first cannot, that cuts it off or the second
cannot either (`Pairing.Admits`).
-/
import PocketLisp.Proofs.Activity

namespace PocketLisp

variable {α β : Type} {P : Pairing}

namespace Lockstep

section Activities

variable {self self' : Recur} (h : RecurLockstep P self self')
include h

/-! ### Programs -/

theorem evaluateFrom (env : FrameId) (fuel : Nat) (result : Value) (source : Source) :
    Lockstep P P.Stopped (Run.evaluateFrom self env fuel result source)
      (Run.evaluateFrom self' env fuel result source) := by
  induction fuel generalizing result source with
  | zero => exact Lockstep.throw _
  | succ fuel ih =>
    simp only [Run.evaluateFrom]
    cases source.skip.isEmpty with
    | true => exact Lockstep.pure _
    | false =>
      refine (nextForm h .code env).bind_run (fun p => ?_) (fun _ _ _ => rfl) source.skip
      refine (Lockstep.ofExcept p.1).bind fun form => ?_
      exact (h (.eval form env)).bind fun v => ih v p.2

theorem evaluate (env : FrameId) (source : Source) :
    Lockstep P P.Stopped (Run.evaluate self env source) (Run.evaluate self' env source) :=
  evaluateFrom h env _ _ _

/-! ### Programs of the host -/

/-- A program of the host is not cut off by faults: it gets to know them. -/
theorem program (p : HostProgram) (hp : P.quiet → p.Quiet) :
    Lockstep P P.Unfinished (Run.program self p) (Run.program self' p) := by
  induction p with
  | done v => exact Lockstep.pure _
  | fail f => exact Lockstep.throw _
  | list items next ih =>
    refine (Lockstep.ofFresh _).bind_unfinished fun v => ih v fun hq => ?_
    cases hp hq with | list hnext => exact hnext v
  | text content next ih =>
    refine (Lockstep.ofFresh _).bind_unfinished fun v => ih v fun hq => ?_
    cases hp hq with | text hnext => exact hnext v
  | isGlobal env next ih =>
    refine (Lockstep.read (Store.unseen_isGlobal env)).bind_unfinished fun b => ih b fun hq => ?_
    cases hp hq with | isGlobal hnext => exact hnext b
  | boundSymbols env next ih =>
    refine (Lockstep.read (Store.unseen_boundSymbols env)).bind_unfinished fun l =>
      ih l fun hq => ?_
    cases hp hq with | boundSymbols hnext => exact hnext l
  | define env s v next ih =>
    refine (define env s v).never.observe.bind_unfinished fun r => ih r fun hq => ?_
    cases hp hq with | define hnext => exact hnext r
  | eval form env next ih =>
    -- a quiet program makes no calls
    have hq : ¬ P.quiet := fun hq => nomatch hp hq
    exact ((h (.eval form env)).unfinished hq).observe.bind_unfinished fun r => ih r fun hq' =>
      absurd hq' hq
  | apply f args env next ih =>
    have hq : ¬ P.quiet := fun hq => nomatch hp hq
    exact ((h (.apply f args env)).unfinished hq).observe.bind_unfinished fun r => ih r fun hq' =>
      absurd hq' hq
  | evaluate global content next ih =>
    have hq : ¬ P.quiet := fun hq => nomatch hp hq
    exact ((evaluate h global _).unfinished hq).observe.bind_unfinished fun r => ih r fun hq' =>
      absurd hq' hq
  | emit channel content next ih =>
    refine (h (.emit channel content)).bind_unfinished fun _ => ih fun hq => ?_
    cases hp hq with | emit hnext => exact hnext
  | subscribe channel react next ihreact ih =>
    have hsub : Lockstep P P.Unfinished _ _ :=
      update_of (Store.blind_subscribe channel react) fun hq _ hs => by
        cases hp hq with | subscribe hreact _ => exact Store.subscribe_quiet hs hreact
    refine Lockstep.bind_unfinished hsub fun _ => ih fun hq => ?_
    cases hp hq with | subscribe _ hnext => exact hnext
  | note line next ih =>
    refine (Lockstep.change (Store.harmless_note line)).bind_unfinished fun _ => ih fun hq => ?_
    cases hp hq with | note hnext => exact hnext

theorem deliver (channel i : Nat) (content : String) :
    Lockstep P P.Unfinished (Run.deliver self channel i content)
      (Run.deliver self' channel i content) := by
  refine update_bind (Store.unseen_idleSubscriber? channel i).harmless fun s hs => ?_
  cases hx : s.idleSubscriber? channel i with
  | none => exact Lockstep.pure _
  | some x =>
    have hprogram := program h (x.react content) fun hq =>
      Store.idleSubscriber?_quiet (hs hq) hx content
    refine (Lockstep.change (Store.harmless_setBusy channel i true)).bind_unfinished fun _ => ?_
    refine hprogram.observe.bind_unfinished fun _ => ?_
    exact Lockstep.change (Store.harmless_setBusy channel i false)

theorem emit (channel : Nat) (content : String) :
    Lockstep P P.Unfinished (Run.emit self channel content) (Run.emit self' channel content) := by
  refine (Lockstep.read (Store.unseen_subscriberCount channel)).bind_unfinished fun count => ?_
  induction List.range count with
  | nil => exact Lockstep.pure _
  | cons i is ih => exact (deliver h channel i content).bind_unfinished fun _ => ih

/-! ### Ports -/

omit h in
theorem takePort (table : Nat) (operation : String) (v : Value) :
    Lockstep P P.Stopped (Run.Port.take table operation v) (Run.Port.take table operation v) := by
  refine (Lockstep.ofExcept (v.expectIndex operation)).bind fun port => ?_
  refine (Lockstep.read (Store.unseen_source? table port)).bind fun x => ?_
  cases x with
  | none => exact Lockstep.throw _
  | some source =>
    exact (Lockstep.change (Store.harmless_modifyPorts table _)).bind fun _ => Lockstep.pure _

omit h in
theorem openFile (table : Nat) (v : Value) :
    Lockstep P P.Stopped (Run.Port.openFile table v) (Run.Port.openFile table v) := by
  refine (Lockstep.ofExcept (v.expectText _)).bind fun path => ?_
  refine (Lockstep.update (Store.harmless_readFile path)).bind fun x => ?_
  cases x with
  | error e => exact Lockstep.throw _
  | ok content =>
    exact (Lockstep.update (Store.harmless_openPort table _)).bind fun _ => Lockstep.pure _

theorem nextFromPort (table : Nat) (marker : Symbol) (v : Value) (env : FrameId) :
    Lockstep P P.Stopped (Run.Port.next self table marker v env)
      (Run.Port.next self' table marker v env) := by
  refine (takePort table _ v).bind fun taken => ?_
  obtain ⟨port, source⟩ := taken
  -- the rest of the text goes back also where the form was refused
  have hput : ∀ rest, Lockstep P P.Stopped
      (Run.change fun s => s.modifyPorts table fun t => t.putBack port rest)
      (Run.change fun s => s.modifyPorts table fun t => t.putBack port rest) :=
    fun rest => Lockstep.change (Store.harmless_modifyPorts table _)
  dsimp only
  cases source.skip.isEmpty with
  | true => exact (hput source.skip).bind fun _ => Lockstep.pure _
  | false =>
    refine (global env).bind fun env => ?_
    refine (nextForm h .code env).bind_run (fun p => ?_) (fun _ _ _ => rfl) source.skip
    exact (hput p.2).bind fun _ => Lockstep.ofExcept p.1

omit h in
theorem closePort (table : Nat) (v : Value) :
    Lockstep P P.Stopped (Run.Port.close table v) (Run.Port.close table v) :=
  (takePort table _ v).bind fun _ => Lockstep.pure _

/-! ### Functions -/

omit h in
theorem unary {g g' : Value → Run Value} (hg : ∀ v, Lockstep P P.Stopped (g v) (g' v))
    (name : String) (args : List Value) :
    Lockstep P P.Stopped (Run.unary name args g) (Run.unary name args g') := by
  match args with
  | [v] => exact hg v
  | [] | _ :: _ :: _ => exact Lockstep.throw _

omit h in
theorem binary {g g' : Value → Value → Run Value}
    (hg : ∀ v w, Lockstep P P.Stopped (g v w) (g' v w)) (name : String) (args : List Value) :
    Lockstep P P.Stopped (Run.binary name args g) (Run.binary name args g') := by
  match args with
  | [v, w] => exact hg v w
  | [] | [_] | _ :: _ :: _ :: _ => exact Lockstep.throw _

theorem reduceElements (f : Function) (env : FrameId) (elements : List Value) :
    Lockstep P P.Stopped (Run.reduceElements self f env elements)
      (Run.reduceElements self' f env elements) := by
  cases elements with
  | nil => exact Lockstep.pure _
  | cons first rest => exact Lockstep.foldlM (fun v w => h (.apply f [v, w] env)) first rest

theorem primitive {rounds rounds' : Nat} (hr : P.Rounds rounds rounds') (name : String)
    (p : Primitive) (args : List Value) (env : FrameId) :
    Lockstep P P.Stopped (Run.primitive self rounds name p args env)
      (Run.primitive self' rounds' name p args env) := by
  cases p with
  | list | fold _ | range | substring => exact Lockstep.ofFresh _
  | isNil | isCons | isSymbol | isNumber | isText | isFunction | isMarker _ =>
    exact unary (fun v => Lockstep.pure _) name args
  | car | cdr | length => exact unary (fun v => Lockstep.ofExcept _) name args
  | reverse => exact unary (fun v => Lockstep.ofFresh _) name args
  | cons => exact binary (fun v w => Lockstep.ofFresh _) name args
  | eq | equal => exact binary (fun v w => Lockstep.pure _) name args
  | map =>
    refine binary (fun v w => ?_) name args
    refine (Lockstep.ofExcept (v.expectFunction "map")).bind fun f => ?_
    refine (Lockstep.ofFresh w.elements).bind fun elements => ?_
    refine (Lockstep.mapM (fun x => h (.apply f [x] env)) elements).bind fun results => ?_
    exact Lockstep.ofFresh _
  | filter =>
    refine binary (fun v w => ?_) name args
    refine (Lockstep.ofExcept (v.expectFunction "filter")).bind fun f => ?_
    refine (Lockstep.ofFresh w.elements).bind fun elements => ?_
    refine (Lockstep.filterM (fun x => ?_) elements).bind fun kept => Lockstep.ofFresh _
    exact (h (.apply f [x] env)).bind fun _ => Lockstep.pure _
  | reduce =>
    refine binary (fun v w => ?_) name args
    refine (Lockstep.ofExcept (v.expectFunction "reduce")).bind fun f => ?_
    refine (Lockstep.ofFresh w.elements).bind fun elements => ?_
    exact reduceElements h f env elements
  | gensym =>
    exact (Lockstep.update (Store.harmless_generateSymbol env)).bind fun _ => Lockstep.pure _
  | print channel =>
    refine unary (fun v => ?_) name args
    exact (h (.emit channel v.print)).stopped.bind fun _ => Lockstep.pure _
  | apply =>
    refine binary (fun v w => ?_) name args
    cases v with
    | function f =>
      exact (Lockstep.ofExcept w.listItems).bind fun items => h (.apply f items env)
    | _ => exact Lockstep.throw _
  | eval =>
    refine unary (fun v => ?_) name args
    refine (global env).bind fun env => ?_
    exact (h (.expand v env)).bind fun form => h (.eval form env)
  | expandOnce =>
    exact unary (fun v => (once? h v env).bind fun _ => Lockstep.pure _) name args
  | expandHead => exact unary (fun v => expandHead h env hr v) name args
  | openPort table => exact unary (fun v => openFile table v) name args
  | readPort table marker => exact unary (fun v => nextFromPort h table marker v env) name args
  | closePort table => exact unary (fun v => closePort table v) name args
  | host index =>
    -- a host function is looked up in stores that tie, so both run the same program
    refine update_bind (Store.harmless_countCall index) fun s hs => ?_
    cases hx : (s.countCall index).1 with
    | none => exact Lockstep.pure _
    | some p =>
      exact (program h (p.1 p.2 args env) fun hq =>
        Store.countCall_quiet (hs hq) hx p.2 args env).stopped

theorem apply {rounds rounds' : Nat} (hr : P.Rounds rounds rounds') (f : Function)
    (args : List Value) (env : FrameId) :
    Lockstep P P.Stopped (Run.apply self rounds f args env)
      (Run.apply self' rounds' f args env) := by
  cases f with
  | native n =>
    refine (Lockstep.ofExcept (n.arity.check n.name args.length)).bind fun _ => ?_
    exact primitive h hr n.name n.body args env
  | closure c => exact callClosure h c.index args

end Activities

end Lockstep

/-! ### The interpreter -/

/-- Activities whose calls go in lockstep go in lockstep. -/
theorem perform_lockstep {self self' : Recur} (h : RecurLockstep P self self')
    {rounds rounds' : Nat} (hr : P.Rounds rounds rounds') :
    RecurLockstep P (perform self rounds) (perform self' rounds') := by
  intro α c
  cases c with
  | eval form env => exact Lockstep.evaluation h hr form env
  | apply f args env => exact Lockstep.apply h hr f args env
  | expand form env => exact Lockstep.wholly h hr form env
  | parse token mode env source => exact Lockstep.reading h token mode env source
  | emit channel content => exact Lockstep.emit h channel content

namespace Pairing

/-- A nested step in a realm is possible in both runs, or its failure cuts off the first run, or
it fails in both with the same fault. -/
def Admits (P : Pairing) (realm : Nat) : Prop :=
  ((P.low realm).HasRoom ∧ (P.high realm).HasRoom) ∨
    (¬ (P.low realm).HasRoom ∧
      (P.cut (.fault (.stackExhausted (P.low realm).limit)) ∨
        (¬ (P.high realm).HasRoom ∧ (P.high realm).limit = (P.low realm).limit)))

/-- Runs on the same levels have room for the same steps. -/
theorem admits_of_same (h : P.high = P.low) (realm : Nat) : P.Admits realm := by
  by_cases hroom : (P.low realm).HasRoom
  · exact .inl ⟨hroom, h ▸ hroom⟩
  · exact .inr ⟨hroom, .inr ⟨h ▸ hroom, by rw [h]⟩⟩

theorem raised_same (h : P.high = P.low) (realm : Nat) :
    (P.raised realm).high = (P.raised realm).low := by
  simp only [raised, h]

/-- A set of pairings that nested steps do not leave. -/
structure Closed (Q : Pairing → Prop) : Prop where
  admits : ∀ {P}, Q P → ∀ realm, P.Admits realm
  raised : ∀ {P}, Q P → ∀ {realm}, (P.low realm).HasRoom → Q (P.raised realm)

theorem ends_refused {c : Call α} {env : FrameId} (hc : c.nestsIn? = some env) {f : Fault}
    (hf : P.cut (.fault f)) : P.Ends c (c.refused f) := by
  cases c with
  | emit channel content => simp [Call.nestsIn?] at hc
  | _ => exact hf

theorem ends_unfinished (hc : P.cut .unfinished) (c : Call α) : P.Ends c (.error .unfinished) := by
  cases c with
  | emit channel content => exact ⟨rfl, hc⟩
  | _ => exact hc

theorem Ties.deepen {s t : Store} (h : P.Ties s t) {env : FrameId}
    (hl : (P.low (s.realmOf env)).HasRoom) (hh : (P.high (s.realmOf env)).HasRoom) :
    (P.raised (s.realmOf env)).Ties (s.deepen env) (t.deepen env) := by
  refine ⟨h.alike.deepen env, ?_, ?_, fun hq => ⟨(h.quiet hq).hosts, (h.quiet hq).subscribers⟩⟩
  · rw [← h.low] at hl
    rw [Store.level_deepen hl, h.low]
    rfl
  · have hrealm := h.alike.realmOf env
    rw [← h.high, ← hrealm] at hh
    rw [Store.level_deepen hh, h.high, hrealm]
    rfl

theorem Ties.riseIn {s t : Store} {realm : Nat} (h : (P.raised realm).Ties s t) :
    P.Ties (s.riseIn realm) (t.riseIn realm) := by
  refine ⟨h.alike.riseIn realm, ?_, ?_, fun hq => ⟨(h.quiet hq).hosts, (h.quiet hq).subscribers⟩⟩
  · rw [Store.level_riseIn, h.low]
    exact lower_raise realm P.low
  · rw [Store.level_riseIn, h.high]
    exact lower_raise realm P.high

end Pairing

/-- Nested steps for which there is room in both runs, around what goes in lockstep. -/
theorem nested_of_room {free : Except Stop α → Prop} (c : Call α) {body body' : Run α}
    {s t : Store} (hst : P.Ties s t)
    (hroom : ∀ env, c.nestsIn? = some env →
      (P.low (s.realmOf env)).HasRoom ∧ (P.high (s.realmOf env)).HasRoom)
    (hplain : c.nestsIn? = none → Lockstep P free body body')
    (hdeep : ∀ {realm}, (P.low realm).HasRoom → Lockstep (P.raised realm) free body body') :
    free (c.nested body s).1 ∨
      ((c.nested body' t).1 = (c.nested body s).1 ∧
        P.Ties (c.nested body s).2 (c.nested body' t).2) := by
  simp only [Call.nested]
  cases hc : c.nestsIn? with
  | none => exact hplain hc s t hst
  | some env =>
    obtain ⟨hl, hh⟩ := hroom env hc
    have hrealm := hst.alike.realmOf env
    have hs : s.depthFault? env = none := Store.depthFault?_eq_none_iff.mpr (hst.low ▸ hl)
    have ht : t.depthFault? env = none :=
      Store.depthFault?_eq_none_iff.mpr (hrealm ▸ hst.high ▸ hh)
    -- both sides take the step, each within its own limit
    simp only [hs, ht, hrealm]
    rcases hdeep hl _ _ (hst.deepen hl hh) with hfree | ⟨hr, hties⟩
    · exact .inl hfree
    · exact .inr ⟨hr, hties.riseIn⟩

/-- Nested steps around what goes in lockstep go in lockstep. -/
theorem nested_lockstep (hadm : ∀ realm, P.Admits realm) (c : Call α) {body body' : Run α}
    (hplain : c.nestsIn? = none → Lockstep P (P.Ends c) body body')
    (hdeep : ∀ {realm}, (P.low realm).HasRoom →
      Lockstep (P.raised realm) (P.Ends c) body body') :
    Lockstep P (P.Ends c) (c.nested body) (c.nested body') := by
  intro s t hst
  by_cases hroom : ∀ env, c.nestsIn? = some env →
      (P.low (s.realmOf env)).HasRoom ∧ (P.high (s.realmOf env)).HasRoom
  · exact nested_of_room c hst hroom hplain hdeep
  · simp only [Classical.not_forall] at hroom
    obtain ⟨env, hc, hroom⟩ := hroom
    have hrealm := hst.alike.realmOf env
    have hlow : s.level (s.realmOf env) = P.low (s.realmOf env) := congrFun hst.low _
    have hhigh : t.level (s.realmOf env) = P.high (s.realmOf env) := congrFun hst.high _
    simp only [Call.nested, hc]
    rcases hadm (s.realmOf env) with hboth | ⟨hl, hcut | ⟨hh, hlimit⟩⟩
    · exact absurd hboth hroom
    -- there is no room in the first run, which is cut off
    · have hs := Store.depthFault?_of_no_room (hlow ▸ hl)
      simp only [hs]
      rw [hlow]
      exact .inl (Pairing.ends_refused hc hcut)
    -- there is none in both runs, under the same limit
    · have hs := Store.depthFault?_of_no_room (hlow ▸ hl)
      have ht := Store.depthFault?_of_no_room (hrealm ▸ hhigh ▸ hh)
      simp only [hs, ht]
      rw [hrealm, hhigh, hlow, hlimit]
      exact .inr ⟨rfl, hst⟩

/-- Two interpreters, of which the second lets as many calls be active as the first, or more, go in
lockstep. -/
theorem run_lockstep {Q : Pairing → Prop} (hQ : Pairing.Closed Q) (hP : Q P)
    {rounds rounds' calls calls' : Nat} (hr : P.Rounds rounds rounds')
    (hcalls : P.Rounds calls calls') :
    RecurLockstep P (run rounds calls) (run rounds' calls') := by
  induction calls generalizing P calls' with
  | zero =>
    intro α c
    -- without calls on the low side the run is cut, or both sides have none
    rcases hcalls.cases with ⟨-, rfl | hc⟩ | ⟨n, n', hn, -⟩
    · exact Lockstep.throw _
    · exact fun _ _ _ => .inl (Pairing.ends_unfinished hc c)
    · exact absurd hn (by omega)
  | succ n ih =>
    intro α c
    rcases hcalls.cases with ⟨hn, -⟩ | ⟨m, m', hm, rfl, hcalls'⟩
    · exact absurd hn (by omega)
    obtain rfl : n = m := by omega
    refine nested_lockstep (hQ.admits hP) c (fun _ => ?_) fun {realm} hroom => ?_
    · exact perform_lockstep (ih hP hr hcalls') hr c
    · exact perform_lockstep (ih (hQ.raised hP hroom) hr hcalls') hr c

/-! ### Runs from one store -/

/-- Runs on the same levels stay on the same levels. -/
theorem Pairing.closed_same : Pairing.Closed fun P => P.high = P.low :=
  ⟨fun h => admits_of_same h, fun h _ _ => raised_same h _⟩

/-- Two runs that start in one store, where some ends of the first leave the second free. -/
def Pairing.ofStore (s : Store) (cut : Stop → Prop) (hcut : ∀ f, ¬ cut (.fault f)) : Pairing :=
  ⟨cut, False, fun hf => hcut _ hf, s.level, s.level⟩

theorem Stop.fault_ne_unfinished (f : Fault) : Stop.fault f ≠ .unfinished := nofun

/-- Two runs that start in one store, where the second is free if the first has used up what it may
use. -/
def Pairing.unfinished (s : Store) : Pairing :=
  .ofStore s (· = .unfinished) Stop.fault_ne_unfinished

section OneStore

variable {s : Store} {cut : Stop → Prop} {hcut : ∀ f, ¬ cut (.fault f)}

/-- Runs that go in lockstep from one store do the same. -/
theorem Lockstep.eq_of_store {free : Except Stop α → Prop} {m m' : Run α}
    (h : Lockstep (Pairing.ofStore s cut hcut) free m m') : free (m s).1 ∨ m' s = m s := by
  rcases h s s ⟨.refl s, rfl, rfl, False.elim⟩ with hfree | ⟨hr, hend⟩
  · exact .inl hfree
  · exact .inr (Prod.ext hr (hend.alike.eq_of_level (hend.high.trans hend.low.symm)))

/-- An interpreter that may use more calls and more rounds does the same, unless the other has used
up what it may use. -/
theorem run_lockstep_of_le {rounds rounds' calls calls' : Nat} (hrounds : rounds ≤ rounds')
    (hcalls : calls ≤ calls') :
    RecurLockstep (Pairing.unfinished s) (run rounds calls) (run rounds' calls') := fun c =>
  run_lockstep Pairing.closed_same rfl (.inr ⟨rfl, hrounds⟩) (.inr ⟨rfl, hcalls⟩) c

end OneStore

end PocketLisp
