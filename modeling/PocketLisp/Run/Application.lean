/-
PocketLisp/Run/Application.lean

Calls of functions: what every primitive does with its arguments.

A primitive gets the frame of its caller, but it uses no more of it than the
global frame and the symbol table of its chain; only a function of the host
may look into it.
-/
import PocketLisp.Run.Channel
import PocketLisp.Run.Expansion
import PocketLisp.Run.Port
import PocketLisp.Value.Equality
import PocketLisp.Value.Operation
import PocketLisp.Value.Sequence

namespace PocketLisp.Run

/-! ### Primitives that call functions -/

/-- A function folded over the elements of a sequence, the first of which is the start. -/
def reduceElements (self : Recur) (f : Function) (env : FrameId) : List Value → Run Value
  | [] => return .nil
  | first :: rest => rest.foldlM (fun v w => self (.apply f [v, w] env)) first

/-! ### All primitives -/

/-- The fault of a primitive that was given another number of arguments than it takes. -/
def misapplied (name : String) (expected : Nat) (args : List Value) : Run Value :=
  fault (.arity name expected args.length false)

/-- Calls a primitive of one argument. -/
def unary (name : String) (args : List Value) (f : Value → Run Value) : Run Value :=
  match args with
  | [v] => f v
  | _ => misapplied name 1 args

/-- Calls a primitive of two arguments. -/
def binary (name : String) (args : List Value) (f : Value → Value → Run Value) : Run Value :=
  match args with
  | [v, w] => f v w
  | _ => misapplied name 2 args

/-- Calls a primitive; `rounds` bounds the expansions of one form. -/
def primitive (self : Recur) (rounds : Nat) (name : String) (p : Primitive) (args : List Value)
    (env : FrameId) : Run Value :=
  let test (f : Value → Bool) : Run Value := unary name args fun v => return .ofBool (f v)
  match p with
  | .list => Fresh.list args
  | .cons => binary name args fun v w => Fresh.cons v w
  | .car => unary name args fun v => v.car
  | .cdr => unary name args fun v => v.cdr
  | .isNil => test Value.isNil
  | .isCons => test Value.isCons
  | .isSymbol => test Value.isSymbol
  | .isNumber => test Value.isNumber
  | .isText => test Value.isText
  | .isFunction => test Value.isFunction
  | .fold op => op.fold args
  | .length => unary name args fun v => v.length
  | .reverse => unary name args fun v => v.reverse
  | .map => binary name args fun v w => do
    let f ← v.expectFunction "map"
    let elements ← w.elements
    let results ← elements.mapM fun x => self (.apply f [x] env)
    Fresh.list results
  | .filter => binary name args fun v w => do
    let f ← v.expectFunction "filter"
    let elements ← w.elements
    let kept ← elements.filterM fun x => do return (← self (.apply f [x] env)).isTrue
    Fresh.list kept
  | .reduce => binary name args fun v w => do
    let f ← v.expectFunction "reduce"
    let elements ← w.elements
    reduceElements self f env elements
  | .range => Value.range args
  | .substring => Value.substring args
  | .eq => binary name args fun v w => return .ofBool (v.same w)
  | .equal => binary name args fun v w => return .ofBool (v.equal w)
  | .gensym => do return .symbol (← update fun s => s.generateSymbol env)
  | .print channel => unary name args fun v => do
    self (.emit channel v.print)
    return v
  | .apply => binary name args fun v w =>
    match v with
    | .function f => do
      let items ← w.listItems
      self (.apply f items env)
    | _ => fault (.undefinedFunction v.print)
  | .eval => unary name args fun v => do
    let global ← global env
    let form ← self (.expand v global)
    self (.eval form global)
  | .expandOnce => unary name args fun v => do
    return (← Expansion.once? self v env).getD v
  | .expandHead => unary name args fun v => Expansion.head self env rounds v
  | .openPort table => unary name args fun v => Port.openFile table v
  | .readPort table marker => unary name args fun v => Port.next self table marker v env
  | .isMarker marker => test fun v => v.same (.symbol marker)
  | .closePort table => unary name args fun v => Port.close table v
  | .host index => do
    match ← update fun s => s.countCall index with
    | some (f, calls) => program self (f calls args env)
    | none => return .nil

/-- Calls a function. -/
def apply (self : Recur) (rounds : Nat) (f : Function) (args : List Value) (env : FrameId) :
    Run Value :=
  match f with
  | .native n => do
    n.arity.check n.name args.length
    primitive self rounds n.name n.body args env
  | .closure c => callClosure self c.index args

end PocketLisp.Run
