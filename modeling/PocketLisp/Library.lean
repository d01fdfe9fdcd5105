/-
PocketLisp/Library.lean

The standard primitives: their names, the numbers of arguments that they
take, and the order in which they are bound in a global frame.
-/
import PocketLisp.Interpreter

namespace PocketLisp

/-- Groups of primitives that are bound together. -/
inductive PrimitiveGroup where
  | lists | predicates | arithmetic | sequences | identity | printing | reflection | system
  deriving DecidableEq, Repr

namespace PrimitiveGroup

/-- All groups in the order in which an engine binds them. -/
def all : List PrimitiveGroup :=
  [.lists, .predicates, .arithmetic, .sequences, .identity, .printing, .reflection, .system]

/-- The primitives of a group.  They print on a channel; those of the system use a table of ports
and a marker for the end of a port. -/
def entries (channel ports : Nat) (marker : Symbol) :
    PrimitiveGroup → List (String × Arity × Primitive)
  | .lists =>
    [("list", .atLeast 0, .list), ("cons", .exactly 2, .cons), ("car", .exactly 1, .car),
      ("cdr", .exactly 1, .cdr)]
  | .predicates =>
    [("nullp", .exactly 1, .isNil), ("consp", .exactly 1, .isCons),
      ("symbolp", .exactly 1, .isSymbol), ("numberp", .exactly 1, .isNumber),
      ("stringp", .exactly 1, .isText), ("functionp", .exactly 1, .isFunction)]
  | .arithmetic => Operator.all.map fun op => (op.name, op.arity, .fold op)
  | .sequences =>
    [("length", .exactly 1, .length), ("reverse", .exactly 1, .reverse),
      ("map", .exactly 2, .map), ("filter", .exactly 2, .filter),
      ("reduce", .exactly 2, .reduce), ("range", .between 1 3, .range),
      ("substring", .between 2 3, .substring)]
  | .identity =>
    [("eq", .exactly 2, .eq), ("equal", .exactly 2, .equal), ("gensym", .exactly 0, .gensym)]
  | .printing => [("print", .exactly 1, .print channel)]
  | .reflection =>
    [("apply", .exactly 2, .apply), ("eval", .exactly 1, .eval),
      ("macroexpand-1", .exactly 1, .expandOnce), ("macroexpand", .exactly 1, .expandHead)]
  | .system =>
    [("sys:open-file-for-input", .exactly 1, .openPort ports),
      ("sys:read", .exactly 1, .readPort ports marker), ("sys:eof-p", .exactly 1, .isMarker marker),
      ("sys:close", .exactly 1, .closePort ports)]

end PrimitiveGroup

/-- The name of the symbol that marks the end of a port. -/
def markerName : String := "sys:eof"

namespace Run

/-- Binds a value to a name in the global frame of a chain. -/
def bindGlobally (env : FrameId) (name : String) (v : Value) : Run Unit := do
  let global ← global env
  let symbol ← intern global name
  define global symbol v

/-- Binds a new native function to its name in the global frame of a chain. -/
def bindNative (env : FrameId) (name : String) (arity : Arity) (p : Primitive) : Run Unit := do
  let id ← Fresh.id
  bindGlobally env name (.function (.native ⟨id, name, arity, p⟩))

/-- Binds a new function of the host to its name in the global frame of a chain. -/
def bindHost (env : FrameId) (name : String) (arity : Arity) (f : HostFunction) : Run Unit := do
  let index ← update fun s => s.addHost f
  bindNative env name arity (.host index)

/-- Binds the primitives of a group; those of the system get a new table of ports. -/
def bindGroup (env : FrameId) (channel : Nat) (group : PrimitiveGroup) : Run Unit := do
  let entries ← match group with
    | .system => do
      let ports ← update fun s => s.addPortTable
      let marker ← intern env markerName
      pure (group.entries channel ports marker)
    | _ => pure (group.entries channel 0 default)
  entries.forM fun (name, arity, p) => bindNative env name arity p

end Run

end PocketLisp
