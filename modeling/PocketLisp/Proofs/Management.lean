/-
PocketLisp/Proofs/Management.lean

What the operations of a host are made of.

Apart from what programs do, an operation makes realms, channels, tables of
ports and functions of the host, makes symbols constants and drops bindings
(`Manages`).  Like the activities of the interpreter, operations bind expanders
and read texts in frames of a kind only, if they are given such frames for that
(`Operation.StaysIn`).

Main result: where all these operations on the store and the interpreter lead,
an operation of a host leads (`Operation.leads`).  Making an engine that runs an
initial program is told apart into its two parts, as the program is read in a
frame that there is not before.
-/
import PocketLisp.Proofs.Composition
import PocketLisp.Proofs.Constants

namespace PocketLisp

/-- The operations on the store that the operations of a host are made of, of which those that add
functions of the host add functions of a kind only. -/
inductive Manages (P : FrameId → Prop) (F : HostFunction → Prop) : Kind
  | operates {α : Type} {f : Store → α × Store} : OperatesIn P f → Manages P F f
  | readFile (path : String) : Manages P F fun s => s.readFile path
  | fileExists (path : String) : Manages P F fun s => s.fileExists path
  | addRealm (caseRule : CaseRule) (maxDepth : Nat) :
      Manages P F fun s => s.addRealm caseRule maxDepth
  | addChannel : Manages P F fun s => s.addChannel
  | addPortTable : Manages P F fun s => s.addPortTable
  | addHost {f : HostFunction} : F f → Manages P F fun s => s.addHost f
  | makeConstant (env : FrameId) (symbol : Symbol) :
      Manages P F fun s => ((), s.makeConstant env symbol)
  | clear (i : FrameId) : Manages P F fun s => ((), s.clear i)

variable {P : FrameId → Prop} {F : HostFunction → Prop} {α : Type}

/-- An activity manages engines, adds functions of a kind only, and binds expanders and reads texts
in frames of a kind only. -/
abbrev Managed (P : FrameId → Prop) (F : HostFunction → Prop) {α : Type} (m : Recur → Run α) :
    Prop :=
  ComposedOf (Manages P F) (CallsIn P) m

namespace Managed

theorem of_in {m : Recur → Run α} (h : ComposedIn P m) : Managed P F m :=
  ComposedOf.mono Manages.operates h

/-! ### Making engines -/

theorem bindGlobally (env : FrameId) (name : String) (v : Value) :
    Managed P F fun _ => Run.bindGlobally env name v :=
  of_in <| (ComposedOf.global env).bind fun g =>
    (ComposedOf.intern g name).bind fun symbol => ComposedOf.define g symbol v

theorem bindNative (env : FrameId) (name : String) (arity : Arity) (p : Primitive) :
    Managed P F fun _ => Run.bindNative env name arity p :=
  (of_in (ComposedOf.ofFresh Fresh.id)).bind fun _ => bindGlobally env name _

theorem bindGroup (env : FrameId) (channel : Nat) (group : PrimitiveGroup) :
    Managed P F fun _ => Run.bindGroup env channel group := by
  have hentries : ∀ entries : List (String × Arity × Primitive),
      Managed P F fun _ => entries.forM fun x => Run.bindNative env x.1 x.2.1 x.2.2 :=
    ComposedOf.forM fun x => bindNative env x.1 x.2.1 x.2.2
  -- the entries are the same for all groups but the last one, which first makes a table of ports
  simp only [Run.bindGroup]
  cases group with
  | system =>
    simp only [pure_bind]
    refine (ComposedOf.update .addPortTable).bind fun ports => ?_
    exact (of_in (ComposedOf.intern env markerName)).bind fun marker => hentries _
  | _ =>
    simp only [pure_bind]
    exact hentries _

theorem bindConstant (global : FrameId) (k : Keyword) (v : Value) :
    Managed P F fun _ => Engine.bindConstant global k v := by
  refine (of_in (ComposedOf.intern global k.spelling)).bind fun symbol => ?_
  refine (of_in (ComposedOf.define global symbol v)).bind fun _ => ?_
  exact ComposedOf.change (.makeConstant global symbol)

theorem bare (config : Config) : Managed P F fun _ => Engine.bare config := by
  refine (ComposedOf.update (.addRealm config.caseRule config.maxDepth)).bind fun g => ?_
  refine (ComposedOf.update .addChannel).bind fun channel => ?_
  refine (bindConstant g .nil .nil).bind fun _ => ?_
  refine (bindConstant g .t .t).bind fun _ => ?_
  exact (ComposedOf.forM (fun group => bindGroup g channel group) _).bind fun _ => .pure _

/-- The initial program is read in the global frame of the engine. -/
theorem startBy {e : Engine} (he : P e.global) (initFile : Option String) :
    Managed P F fun self => e.startBy self initFile := by
  cases initFile with
  | none => exact .pure ()
  | some path =>
    refine (ComposedOf.update (.fileExists path)).bind fun found => ?_
    -- only an init file that exists is read, and its fault is the engine's own
    cases found with
    | false => exact .pure ()
    | true =>
      refine (ComposedOf.update (.readFile path)).bind fun x => ?_
      cases x with
      | error f => exact .throw _
      | ok content =>
        have hevaluate := ComposedOf.evaluate he content.toList
        refine (of_in hevaluate).observe.bind fun r => ?_
        cases r with
        | error f => exact .throw _
        | ok v => exact .pure ()

end Managed

/-! ### Where operations lead -/

/-- An operation reads texts and binds expanders in frames of a kind only, and adds functions of a
kind only.  The frame of an engine that is made is not known in advance. -/
def Operation.StaysIn (P : FrameId → Prop) (F : HostFunction → Prop) : Operation α → Prop
  | .create _ => ∀ i, P i
  | .evaluate e _ | .evaluateLines e _ | .readForm e _ | .defineExpander e _ _ => P e.global
  | .register _ _ _ f => F f
  | .subscribe _ react => ∀ content, (react content).ReadsIn P
  | .program p => p.ReadsIn P
  | _ => True

section

variable {R : Store → Store → Prop} (hR : Leads (Manages P F) R) {a : Allowance}
  (hself : ∀ {α : Type} (c : Call α), CallsIn P c → ∀ s, R s (a.run c s).2)
include hR

include hself

theorem Engine.start_leads {e : Engine} (he : P e.global) (initFile : Option String) (s : Store) :
    R s (e.start a initFile s).2 := by
  rw [← e.startBy_run]
  exact (Managed.startBy he initFile).leads hR hself s

/-- Where operations on the store and the interpreter lead, an operation of a host leads. -/
theorem Operation.leads (x : Operation α) (hx : x.StaysIn P F) (s : Store) : R s (x.run a s).2 := by
  have hinto : ∀ {α : Type} {m : Recur → Run α}, ComposedIn P m → ∀ s, R s (m a.run s).2 :=
    fun h => ComposedOf.leads (Managed.of_in h) hR hself
  have hmanaged : ∀ {α : Type} {m : Recur → Run α}, Managed P F m → ∀ s, R s (m a.run s).2 :=
    fun h => ComposedOf.leads h hR hself
  -- every operation is composed of runs of the program and of single changes of the store
  cases x with
  | create config =>
    refine hR.bind (hmanaged (Managed.bare config)) (fun e s => ?_) s
    refine hR.bind (Engine.start_leads hR hself (hx e.global) config.initFile) (fun _ s => ?_) s
    exact hR.refl s
  | environment caseRule maxDepth => exact hR.operation (.addRealm caseRule maxDepth) s
  | evaluate e content => exact hinto (ComposedOf.evaluate hx _) s
  | evaluateLines e lines => exact hinto (ComposedOf.evaluate hx _) s
  | readForm e content =>
    refine hR.bind (hinto (ComposedOf.nextForm .code hx _)) (fun p s => ?_) s
    rcases p with ⟨f | form, rest⟩ <;> exact hR.refl s
  | setVariable e name v => exact hmanaged (Managed.bindGlobally e.global name v) s
  | setHostVariable e name y =>
    refine hR.bind (hinto (ComposedOf.ofFresh y.convert)) (fun v s => ?_) s
    exact hmanaged (Managed.bindGlobally e.global name v) s
  | getVariable e name =>
    refine hR.bind (hinto (ComposedOf.intern e.global name)) (fun symbol s => ?_) s
    exact hinto (ComposedOf.get e.global symbol) s
  | makeConstant e name =>
    refine hR.bind (hinto (ComposedOf.intern e.global name)) (fun symbol s => ?_) s
    exact hR.operation (.makeConstant e.global symbol) s
  | isConstant e name =>
    exact hR.bind (hinto (ComposedOf.intern e.global name)) (fun symbol s => hR.refl s) s
  | defineExpander e name v =>
    match v with
    | .function (.closure c) =>
      refine hR.bind (hinto (ComposedOf.intern e.global name)) (fun symbol s => ?_) s
      exact hR.operation (.operates (.bindExpander symbol c.index hx)) s
    | .nil | .t | .number _ | .text .. | .symbol _ | .cons .. | .function (.native _) =>
      exact hR.refl s
  | register e name arity f =>
    refine hR.bind (hR.update (.addHost hx)) (fun index s => ?_) s
    exact hmanaged (Managed.bindNative e.global name arity (.host index)) s
  | subscribe e react => exact hR.operation (.operates (.subscribe e.channel hx)) s
  | expand form env => exact hself (.expand form env) trivial s
  | program p => exact hinto (ComposedOf.program hx) s
  | drop e => exact hR.operation (.clear e.global) s

end

end PocketLisp
