/-
PocketLisp/Store/Basic.lean

The store: everything that evaluation can read and change.

Frames hold bindings and are chained; a frame names the frame that it extends
by its place in the store.  What the frames of one chain share is a realm: a
symbol table, the constants, and the nesting depth with its limit.  Several
realms can live in one store, one for every engine.
-/
import PocketLisp.FileTree
import PocketLisp.Parameters
import PocketLisp.Host
import PocketLisp.Store.Bindings
import PocketLisp.Token

namespace PocketLisp

/-- A scope. -/
structure Frame where
  /-- what this frame shares with the others of its chain -/
  realm : Nat
  /-- the frame that this one extends -/
  outer : Option FrameId
  values : Bindings Value
  /-- the places of the closures that expand macro calls -/
  expanders : Bindings Nat
  deriving Inhabited

/-- The code of a closure and the frame it was made in. -/
structure Closure where
  name : Option Symbol
  params : Parameters
  body : List Value
  env : FrameId
  deriving Inhabited

/-- The name of a closure in faults. -/
def Closure.displayName (c : Closure) : String :=
  match c.name with
  | some s => s.name
  | none => "lambda"

/-- What the frames of one chain share. -/
structure Realm where
  symbols : SymbolTable
  constants : List Symbol
  /-- how many lists are being read, expanded or evaluated -/
  depth : Nat
  maxDepth : Nat

instance : Inhabited Realm := ⟨⟨.empty 0 .preserve, [], 0, 0⟩⟩

/-- The open ports of an engine. -/
structure PortTable where
  /-- how many ports have been opened; ports are numbered from one on -/
  opened : Nat
  /-- the open ports and what remains of their texts -/
  ports : List (Nat × Source)
  deriving Inhabited

/-- Everything that evaluation can read and change. -/
structure Store where
  frames : Array Frame
  closures : Array Closure
  realms : Array Realm
  /-- the subscribers of each channel, in the order of subscription -/
  channels : Array (Array Subscriber)
  portTables : Array PortTable
  /-- the functions of the host, and how often each has been called -/
  hosts : Array (HostFunction × Nat)
  /-- the first unused object number -/
  nextId : ObjectId
  files : FileTree
  /-- the paths of the files that programs have looked for, the latest first -/
  sought : List String
  /-- the lines written by programs of the host -/
  transcript : Array String

namespace Store

/-- The store without frames. -/
def empty (files : FileTree) : Store :=
  ⟨#[], #[], #[], #[], #[], #[], 0, files, [], #[]⟩

/-! ### Chains of frames -/

/-- The frame at a place. -/
def frame (s : Store) (i : FrameId) : Frame := s.frames.getD i default

/-- The first `fuel` frames from one frame outwards. -/
def chainWithin (frames : Array Frame) : (fuel : Nat) → FrameId → List FrameId
  | 0, _ => []
  | fuel + 1, i =>
    match frames[i]? with
    | none => []
    | some f =>
      match f.outer with
      | none => [i]
      | some o => i :: chainWithin frames fuel o

/-- The frames from one frame outwards.  A chain is no longer than there are frames. -/
def chain (s : Store) (env : FrameId) : List FrameId :=
  chainWithin s.frames s.frames.size env

/-- The outermost frame of a chain. -/
def global (s : Store) (env : FrameId) : FrameId := (s.chain env).getLastD env

/-- Whether a frame extends no other. -/
def isGlobal (s : Store) (env : FrameId) : Bool := (s.frame env).outer.isNone

/-! ### Realms -/

/-- The place of the realm of a frame. -/
def realmOf (s : Store) (env : FrameId) : Nat := (s.frame env).realm

/-- The realm of a frame. -/
def realm (s : Store) (env : FrameId) : Realm := s.realms.getD (s.realmOf env) default

/-- Changes the realm of a frame. -/
def modifyRealm (s : Store) (env : FrameId) (change : Realm → Realm) : Store :=
  let i := s.realmOf env
  { s with realms := s.realms.modify i change }

/-- Adds a realm and a global frame for it, which is the result. -/
def addRealm (s : Store) (caseRule : CaseRule) (maxDepth : Nat) : FrameId × Store :=
  let i := s.realms.size
  (s.frames.size,
    { s with
      realms := s.realms.push ⟨.empty i caseRule, [], 0, maxDepth⟩
      frames := s.frames.push ⟨i, none, [], []⟩ })

/-- The symbol of a name in the realm of a frame. -/
def intern (s : Store) (env : FrameId) (name : String) : Symbol × Store :=
  let (symbol, table) := (s.realm env).symbols.intern name
  (symbol, s.modifyRealm env fun r => { r with symbols := table })

/-- A symbol that the realm of a frame has not had before. -/
def generateSymbol (s : Store) (env : FrameId) : Symbol × Store :=
  let (symbol, table) := (s.realm env).symbols.generate
  (symbol, s.modifyRealm env fun r => { r with symbols := table })

/-! ### Nesting depth -/

/-- The fault of one more nested step, if it is one too many. -/
def depthFault? (s : Store) (env : FrameId) : Option Fault :=
  let r := s.realm env
  if r.maxDepth < r.depth + 1 then some (.stackExhausted r.maxDepth) else none

/-- One more nested step. -/
def deepen (s : Store) (env : FrameId) : Store :=
  s.modifyRealm env fun r => { r with depth := r.depth + 1 }

/-- One nested step less in the realm at a place. -/
def riseIn (s : Store) (realm : Nat) : Store :=
  { s with realms := s.realms.modify realm fun r => { r with depth := r.depth - 1 } }

/-- One nested step less. -/
def rise (s : Store) (env : FrameId) : Store := s.riseIn (s.realmOf env)

/-! ### Bindings -/

/-- A new frame that extends another, as the result. -/
def extend (s : Store) (env : FrameId) : FrameId × Store :=
  let realm := s.realmOf env
  (s.frames.size, { s with frames := s.frames.push ⟨realm, some env, [], []⟩ })

/-- What a symbol is bound to in one frame. -/
def bound? (s : Store) (symbol : Symbol) (i : FrameId) : Option Value :=
  (s.frame i).values.get? symbol

/-- What a symbol is bound to in the nearest frame of a chain that binds it. -/
def lookup? (s : Store) (env : FrameId) (symbol : Symbol) : Option Value :=
  (s.chain env).findSome? (s.bound? symbol)

/-- What a symbol is bound to; it has to be bound. -/
def valueOf (s : Store) (env : FrameId) (symbol : Symbol) : Except Fault Value :=
  match s.lookup? env symbol with
  | some v => .ok v
  | none => .error (.undefinedSymbol symbol.name)

/-- Whether a symbol is a constant in the realm of a frame. -/
def isConstant (s : Store) (env : FrameId) (symbol : Symbol) : Bool :=
  (s.realm env).constants.contains symbol

/-- Makes a symbol a constant. -/
def makeConstant (s : Store) (env : FrameId) (symbol : Symbol) : Store :=
  s.modifyRealm env fun r =>
    if r.constants.contains symbol then r else { r with constants := symbol :: r.constants }

/-- Binds a symbol in one frame. -/
def bindAt (s : Store) (i : FrameId) (symbol : Symbol) (v : Value) : Store :=
  { s with frames := s.frames.modify i fun f => { f with values := f.values.put symbol v } }

/-- The nearest frame of a chain that binds a symbol. -/
def binder? (s : Store) (env : FrameId) (symbol : Symbol) : Option FrameId :=
  (s.chain env).find? fun i => (s.bound? symbol i).isSome

/-- Where a definition of a symbol in a frame would be made. -/
def definePlace (s : Store) (env : FrameId) (symbol : Symbol) : Except Fault FrameId :=
  if s.isConstant env symbol then .error (.constantViolation symbol.name) else .ok env

/-- Where an assignment to a symbol would be made. -/
def assignPlace (s : Store) (env : FrameId) (symbol : Symbol) : Except Fault FrameId :=
  if s.isConstant env symbol then .error (.constantViolation symbol.name)
  else match s.binder? env symbol with
    | some i => .ok i
    | none => .error (.undefinedSymbol symbol.name)

/-- The symbols bound in one frame, in the order of their names. -/
def boundSymbols (s : Store) (i : FrameId) : List Symbol := (s.frame i).values.sortedKeys

/-! ### Expanders -/

/-- The place of the closure that expands calls with this head. -/
def expander? (s : Store) (env : FrameId) (symbol : Symbol) : Option Nat :=
  (s.chain env).findSome? fun i => (s.frame i).expanders.get? symbol

/-- Lets a closure expand calls with this head, in one frame. -/
def bindExpander (s : Store) (i : FrameId) (symbol : Symbol) (closure : Nat) : Store :=
  { s with
    frames := s.frames.modify i fun f => { f with expanders := f.expanders.put symbol closure } }

/-- The symbols that head macro calls in one frame, in the order of their names. -/
def expanderSymbols (s : Store) (i : FrameId) : List Symbol := (s.frame i).expanders.sortedKeys

/-- Drops all bindings and expanders of one frame. -/
def clear (s : Store) (i : FrameId) : Store :=
  { s with frames := s.frames.modify i fun f => { f with values := [], expanders := [] } }

/-! ### Files -/

/-- Whether there is a file at a path. -/
def fileExists (s : Store) (path : String) : Bool × Store :=
  (s.files.exists? path, { s with sought := path :: s.sought })

/-- The text of the file at a path. -/
def readFile (s : Store) (path : String) : Except FileError String × Store :=
  (s.files.read path, { s with sought := path :: s.sought })

/-! ### Closures and functions of the host -/

/-- The closure at a place. -/
def closure (s : Store) (i : Nat) : Closure := s.closures.getD i default

/-- Adds a function of the host, whose place is the result. -/
def addHost (s : Store) (f : HostFunction) : Nat × Store :=
  (s.hosts.size, { s with hosts := s.hosts.push (f, 0) })

/-- Counts one more call of a function of the host; the result is the function and the count. -/
def countCall (s : Store) (i : Nat) : Option (HostFunction × Nat) × Store :=
  match s.hosts[i]? with
  | some (f, calls) =>
    (some (f, calls + 1), { s with hosts := s.hosts.modify i fun h => (h.1, calls + 1) })
  | none => (none, s)

/-- Adds a closure, whose place is the result. -/
def addClosure (s : Store) (c : Closure) : Nat × Store :=
  (s.closures.size, { s with closures := s.closures.push c })

end Store

end PocketLisp
