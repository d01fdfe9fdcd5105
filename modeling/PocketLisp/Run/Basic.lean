/-
PocketLisp/Run/Basic.lean

Computations over the store, and the calls by which they recur.

A run ends with a result, with a fault, or unfinished: the number of calls
that may be active at the same time, or of rounds of one loop, was not enough.
What a run changes in the store stands also when it ends with a fault.

A reading is a run that takes its input from a text.  It keeps what it has not
read, also when it ends with a fault.
-/
import PocketLisp.Store.Basic
import PocketLisp.Value.Fresh

namespace PocketLisp

/-! ### Runs -/

/-- Why a run has no result. -/
inductive Stop where
  | fault (f : Fault)
  | unfinished
  deriving DecidableEq, Repr

/-- Computations over the store. -/
abbrev Run (α : Type) := ExceptT Stop (StateM Store) α

namespace Run

/-- What is read off the store. -/
def read {α : Type} (f : Store → α) : Run α := fun s => (.ok (f s), s)

/-- A change of the store. -/
def change (f : Store → Store) : Run Unit := fun s => (.ok (), f s)

/-- A change of the store with a result. -/
def update {α : Type} (f : Store → α × Store) : Run α := fun s =>
  let (a, s) := f s
  (.ok a, s)

/-- Ends with a fault. -/
def fault {α : Type} (f : Fault) : Run α := throw (.fault f)

/-- Ends unfinished. -/
def unfinished {α : Type} : Run α := throw .unfinished

/-- The result or the fault of a run, as a result. -/
def observe {α : Type} (body : Run α) : Run (Except Fault α) := fun s =>
  match body s with
  | (.ok a, s) => (.ok (.ok a), s)
  | (.error (.fault f), s) => (.ok (.error f), s)
  | (.error .unfinished, s) => (.error .unfinished, s)

/-- A computation that can only fail. -/
def ofExcept {α : Type} : Except Fault α → Run α
  | .ok a => pure a
  | .error f => fault f

/-- A computation that only makes new cells and texts. -/
def ofFresh {α : Type} (body : Fresh α) : Run α := fun s =>
  match body s.nextId with
  | (.ok a, next) => (.ok a, { s with nextId := next })
  | (.error f, next) => (.error (.fault f), { s with nextId := next })

instance : MonadLift (Except Fault) Run := ⟨ofExcept⟩

instance : MonadLift (ExceptT Fault (StateM ObjectId)) Run := ⟨ofFresh⟩

end Run

/-! ### Readings -/

/-- Runs that take their input from a text. -/
abbrev Reading (α : Type) := ExceptT Fault (StateT Source Run) α

namespace Reading

/-- The next token. -/
def token : Reading Token := fun source => pure (Token.next source)

/-- A run that takes nothing from the text. -/
def ofRun {α : Type} (body : Run α) : Reading α := fun source => do
  return (← body.observe, source)

end Reading

/-! ### Calls -/

/-- How a text is read. -/
inductive Mode where
  /-- as code: macros are defined and their calls expanded -/
  | code
  /-- as data, word by word -/
  | data
  deriving DecidableEq, Repr

/-- The activities that recur, each with the type of its result. -/
inductive Call : Type → Type where
  /-- evaluates a form -/
  | eval (form : Value) (env : FrameId) : Call Value
  /-- calls a function -/
  | apply (f : Function) (args : List Value) (env : FrameId) : Call Value
  /-- expands the macro calls in a form -/
  | expand (form : Value) (env : FrameId) : Call Value
  /-- reads a form whose first token has been taken -/
  | parse (token : Token) (mode : Mode) (global : FrameId) (source : Source) :
      Call (Except Fault Value × Source)
  /-- delivers a text to the subscribers of a channel -/
  | emit (channel : Nat) (content : String) : Call Unit

namespace Call

variable {α : Type}

/-- The frame in whose realm a call counts as a nested step: what is done to a list does. -/
def nestsIn? : Call α → Option FrameId
  | .eval (.cons ..) env | .expand (.cons ..) env | .parse .leftParen _ env _ => some env
  | _ => none

/-- How a call ends that would be nested too deeply. -/
def refused (f : Fault) : Call α → Except Stop α
  | .parse _ _ _ source => .ok (.error f, source)
  | .eval .. | .apply .. | .expand .. | .emit .. => .error (.fault f)

/-- What a call does, counted as a nested step while it lasts, however it ends.  The step is given
back to the realm that it was taken from. -/
def nested (c : Call α) (body : Run α) : Run α := fun s =>
  match c.nestsIn? with
  | none => body s
  | some env =>
    match s.depthFault? env with
    | some f => (c.refused f, s)
    | none =>
      let (r, t) := body (s.deepen env)
      (r, t.riseIn (s.realmOf env))

end Call

/-- How calls are carried out. -/
abbrev Recur := ∀ ⦃α : Type⦄, Call α → Run α

namespace Recur

/-- Reads a form whose first token has been taken. -/
def parse (self : Recur) (token : Token) (mode : Mode) (global : FrameId) : Reading Value :=
  fun source => self (.parse token mode global source)

/-- Reads the next form. -/
def form (self : Recur) (mode : Mode) (global : FrameId) : Reading Value := do
  let token ← Reading.token
  self.parse token mode global

end Recur

end PocketLisp
