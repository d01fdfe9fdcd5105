/-
PocketLisp/Run/Channel.lean

Programs of the host and the channels on which text is printed.

A text is delivered to the subscribers that the channel has when the delivery
starts, in the order of their subscription.  A subscriber whose program is
still running, because it caused this text, does not get it.
-/
import PocketLisp.Run.Parsing

namespace PocketLisp

namespace Store

/-- The number of subscribers of a channel. -/
def subscriberCount (s : Store) (channel : Nat) : Nat :=
  match s.channels[channel]? with
  | some subscribers => subscribers.size
  | none => 0

/-- Adds a channel without subscribers, whose place is the result. -/
def addChannel (s : Store) : Nat × Store :=
  (s.channels.size, { s with channels := s.channels.push #[] })

/-- Adds a subscriber to a channel. -/
def subscribe (s : Store) (channel : Nat) (react : String → HostProgram) : Store :=
  { s with
    channels := s.channels.modify channel fun subscribers => subscribers.push ⟨react, false⟩ }

/-- A subscriber whose program is not running. -/
def idleSubscriber? (s : Store) (channel i : Nat) : Option Subscriber :=
  (s.channels[channel]?.bind fun subscribers => subscribers[i]?).filter fun x => !x.busy

/-- Records whether the program of a subscriber is running. -/
def setBusy (s : Store) (channel i : Nat) (busy : Bool) : Store :=
  { s with
    channels := s.channels.modify channel fun subscribers =>
      subscribers.modify i fun x => { x with busy := busy } }

/-- Adds a line to the transcript. -/
def note (s : Store) (line : String) : Store :=
  { s with transcript := s.transcript.push line }

end Store

namespace Run

/-- Carries out a program of the host. -/
def program (self : Recur) : HostProgram → Run Value
  | .done v => return v
  | .fail f => fault f
  | .list items next => do
    let v ← Fresh.list items
    program self (next v)
  | .text content next => do
    let v ← Fresh.text content
    program self (next v)
  | .isGlobal env next => do
    let b ← read fun s => s.isGlobal env
    program self (next b)
  | .boundSymbols env next => do
    let symbols ← read fun s => s.boundSymbols env
    program self (next symbols)
  | .define env symbol v next => do
    let r ← observe (define env symbol v)
    program self (next r)
  | .eval form env next => do
    let r ← observe (self (.eval form env))
    program self (next r)
  | .apply f args env next => do
    let r ← observe (self (.apply f args env))
    program self (next r)
  | .evaluate global content next => do
    let r ← observe (evaluate self global content.toList)
    program self (next r)
  | .emit channel content next => do
    self (.emit channel content)
    program self next
  | .subscribe channel react next => do
    change fun s => s.subscribe channel react
    program self next
  | .note line next => do
    change fun s => s.note line
    program self next

/-- Delivers a text to one subscriber. -/
def deliver (self : Recur) (channel i : Nat) (content : String) : Run Unit := do
  match ← read fun s => s.idleSubscriber? channel i with
  | none => return ()
  | some subscriber =>
    change fun s => s.setBusy channel i true
    let _ ← observe (program self (subscriber.react content))
    change fun s => s.setBusy channel i false

/-- Delivers a text to the subscribers of a channel. -/
def emit (self : Recur) (channel : Nat) (content : String) : Run Unit := do
  let count ← read fun s => s.subscriberCount channel
  (List.range count).forM fun i => deliver self channel i content

end Run

end PocketLisp
