/-
PocketLisp/Host.lean

What a host adds to an engine: functions, and subscribers to printed text.

Both are programs of the host.  Such a program computes on its own and asks
the engine for what only the engine can do: to make a value, to evaluate, to
define a name, to print.  It is the tree of these requests; what it does after
a request depends on the answer.  There is no request by which a program
could change the nesting limit or the nesting depth.
-/
import PocketLisp.Value.Basic

namespace PocketLisp

/-- A program of the host. -/
inductive HostProgram where
  /-- ends with a result -/
  | done (v : Value)
  /-- ends with a fault -/
  | fail (f : Fault)
  /-- makes a list -/
  | list (items : List Value) (next : Value → HostProgram)
  /-- makes a text -/
  | text (content : String) (next : Value → HostProgram)
  /-- asks whether a frame is a global one -/
  | isGlobal (env : FrameId) (next : Bool → HostProgram)
  /-- asks for the symbols bound in a frame, in the order of their names -/
  | boundSymbols (env : FrameId) (next : List Symbol → HostProgram)
  /-- binds a symbol in a frame -/
  | define (env : FrameId) (s : Symbol) (v : Value) (next : Except Fault Unit → HostProgram)
  /-- evaluates a form, whose macro calls are not expanded -/
  | eval (form : Value) (env : FrameId) (next : Except Fault Value → HostProgram)
  /-- calls a function -/
  | apply (f : Function) (args : List Value) (env : FrameId)
      (next : Except Fault Value → HostProgram)
  /-- reads and evaluates a text in a global frame -/
  | evaluate (global : FrameId) (content : String) (next : Except Fault Value → HostProgram)
  /-- delivers a text to the subscribers of a channel -/
  | emit (channel : Nat) (content : String) (next : HostProgram)
  /-- adds a subscriber to a channel; it reacts to each text it gets -/
  | subscribe (channel : Nat) (react : String → HostProgram) (next : HostProgram)
  /-- writes a line into the transcript of the host -/
  | note (line : String) (next : HostProgram)

/-- A function of the host: the program of a call depends on how often the function has been
called, this call included, on the arguments and on the frame of the caller. -/
abbrev HostFunction := (calls : Nat) → (args : List Value) → (env : FrameId) → HostProgram

/-- A subscriber to a channel. -/
structure Subscriber where
  react : String → HostProgram
  /-- its program is running -/
  busy : Bool

end PocketLisp
