/-
PocketLisp/Engine.lean

Engines: a global frame with the standard primitives, a channel on which
programs print, and what a host does with them.  Several engines may live in
one store; values of one may be bound in another.
-/
import PocketLisp.HostValue
import PocketLisp.Library

namespace PocketLisp

/-- The initial program of an engine, if the host names no other. -/
def defaultInitFile : String := "Init.lsp"

/-- The nesting limit of an engine, if the host names no other. -/
def defaultMaxDepth : Nat := 512

/-- What is settled when an engine is made. -/
structure Config where
  caseRule : CaseRule
  /-- a program that is run at the start if the file exists -/
  initFile : Option String
  maxDepth : Nat
  deriving DecidableEq, Repr

/-- The configuration of an engine for which the host settles nothing. -/
def Config.standard : Config := ⟨.preserve, some defaultInitFile, defaultMaxDepth⟩

/-- An engine. -/
structure Engine where
  global : FrameId
  channel : Nat
  deriving DecidableEq, Repr

namespace Engine

/-! ### Making engines -/

/-- Binds a keyword to its own value, for good. -/
def bindConstant (global : FrameId) (k : Keyword) (v : Value) : Run Unit := do
  let symbol ← Run.intern global k.spelling
  Run.define global symbol v
  Run.change fun s => s.makeConstant global symbol

/-- An engine with the standard primitives that has run no program. -/
def bare (config : Config) : Run Engine := do
  let global ← Run.update fun s => s.addRealm config.caseRule config.maxDepth
  let channel ← Run.update fun s => s.addChannel
  bindConstant global .nil .nil
  bindConstant global .t .t
  PrimitiveGroup.all.forM fun group => Run.bindGroup global channel group
  return ⟨global, channel⟩

/-! ### Programs -/

/-- Reads and evaluates a text; the result is that of its last form. -/
def evaluate (a : Allowance) (e : Engine) (content : String) : Run Value :=
  Run.evaluate a.run e.global content.toList

/-- The text in which lines are the body of one `progn`. -/
def prognText (lines : List String) : String :=
  "(progn\n" ++ String.join (lines.map (· ++ "\n")) ++ ")"

/-- Evaluates lines as the body of one `progn`. -/
def evaluateLines (a : Allowance) (e : Engine) (lines : List String) : Run Value :=
  e.evaluate a (prognText lines)

/-- Reads the first form of a text as code, without evaluating it. -/
def readForm (a : Allowance) (e : Engine) (content : String) : Run Value := do
  let (form, _) ← a.run.form .code e.global content.toList
  form

/-- Runs the initial program, if there is one. -/
def start (a : Allowance) (e : Engine) (initFile : Option String) : Run Unit :=
  match initFile with
  | none => return ()
  | some path => do
    if ← Run.update fun s => s.fileExists path then
      match ← Run.update fun s => s.readFile path with
      | .error f => Run.fault (.startup path (.io "read" f.message))
      | .ok content =>
        match ← Run.observe (e.evaluate a content) with
        | .error f => Run.fault (.startup path f)
        | .ok _ => return ()

/-- An engine that has run its initial program. -/
def create (a : Allowance) (config : Config) : Run Engine := do
  let e ← bare config
  e.start a config.initFile
  return e

/-! ### What a host may do -/

/-- Binds a value to a global name. -/
def setVariable (e : Engine) (name : String) (v : Value) : Run Unit :=
  Run.bindGlobally e.global name v

/-- Binds the value of a host value to a global name. -/
def setHostVariable (e : Engine) (name : String) (x : HostValue) : Run Unit := do
  let v ← x.convert
  e.setVariable name v

/-- The value of a global name. -/
def getVariable (e : Engine) (name : String) : Run Value := do
  let symbol ← Run.intern e.global name
  Run.get e.global symbol

/-- Forbids all further definitions of a name and assignments to it. -/
def makeConstant (e : Engine) (name : String) : Run Unit := do
  let symbol ← Run.intern e.global name
  Run.change fun s => s.makeConstant e.global symbol

/-- Whether a name is a constant. -/
def isConstant (e : Engine) (name : String) : Run Bool := do
  let symbol ← Run.intern e.global name
  Run.read fun s => s.isConstant e.global symbol

/-- Lets a closure expand the macro calls with this name. -/
def defineExpander (e : Engine) (name : String) (v : Value) : Run Unit := do
  match v with
  | .function (.closure c) =>
    let symbol ← Run.intern e.global name
    Run.change fun s => s.bindExpander e.global symbol c.index
  | _ => Run.fault (.refused Keyword.macroDef.spelling [v])

/-- Binds a function of the host to its name. -/
def register (e : Engine) (name : String) (arity : Arity) (f : HostFunction) : Run Unit :=
  Run.bindHost e.global name arity f

/-- Adds a subscriber to what programs print. -/
def subscribe (e : Engine) (react : String → HostProgram) : Run Unit :=
  Run.change fun s => s.subscribe e.channel react

/-- The names bound globally, in order. -/
def names (e : Engine) : Run (List String) :=
  Run.read fun s => (s.boundSymbols e.global).map Symbol.name

/-- The names of macros, in order. -/
def expanderNames (e : Engine) : Run (List String) :=
  Run.read fun s => (s.expanderSymbols e.global).map Symbol.name

end Engine

end PocketLisp
