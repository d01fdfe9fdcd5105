/-
PocketLisp/Run/Scope.lean

Runs that look up and bind names, and runs that make and call closures.
-/
import PocketLisp.Run.Basic

namespace PocketLisp.Run

/-! ### Names -/

/-- The symbol of a name. -/
def intern (env : FrameId) (name : String) : Run Symbol := update fun s => s.intern env name

/-- The outermost frame of a chain. -/
def global (env : FrameId) : Run FrameId := read fun s => s.global env

/-- What a symbol is bound to. -/
def get (env : FrameId) (symbol : Symbol) : Run Value := do
  ofExcept (← read fun s => s.valueOf env symbol)

/-- Binds a symbol in a frame. -/
def define (env : FrameId) (symbol : Symbol) (v : Value) : Run Unit := do
  let place ← ofExcept (← read fun s => s.definePlace env symbol)
  change fun s => s.bindAt place symbol v

/-- Binds a symbol anew in the nearest frame that binds it. -/
def assign (env : FrameId) (symbol : Symbol) (v : Value) : Run Unit := do
  let place ← ofExcept (← read fun s => s.assignPlace env symbol)
  change fun s => s.bindAt place symbol v

/-! ### Sequences of forms -/

/-- Evaluates forms in order; the result is that of the last one. -/
def body (self : Recur) (forms : List Value) (env : FrameId) : Run Value :=
  forms.foldlM (fun _ form => self (.eval form env)) .nil

/-! ### Closures -/

/-- A closure of a parameter list and a body, made in a frame. -/
def makeClosure (name : Option Symbol) (params : Value) (forms : List Value) (env : FrameId) :
    Run ClosureRef := do
  let params ← Parameters.ofValue params
  let index ← update fun s => s.addClosure ⟨name, params, forms, env⟩
  return ⟨index, name⟩

/-- Binds parameters to arguments, as far as there are both. -/
def bindAll (env : FrameId) : List Symbol → List Value → Run Unit
  | s :: ss, v :: vs => do
    define env s v
    bindAll env ss vs
  | _, _ => return ()

/-- Calls the closure at a place of the store: its body is evaluated in a new frame, which
extends the frame that the closure was made in. -/
def callClosure (self : Recur) (index : Nat) (args : List Value) : Run Value := do
  let c ← read fun s => s.closure index
  match c.params.fault? c.displayName args.length with
  | some f => fault f
  | none =>
    let env ← update fun s => s.extend c.env
    bindAll env c.params.positional args
    match c.params.rest with
    | some name => define env name (← Fresh.list (args.drop c.params.positional.length))
    | none => pure ()
    body self c.body env

end PocketLisp.Run
