/-
PocketLisp/Interpreter.lean

The interpreter: reading, expanding, evaluating, calling and printing recur by
one function, `run`.

`perform` says what each activity does, given a way to carry out the calls
that it makes.  `run` lets a number of calls be active at the same time, one
inside the other; what would need more is unfinished.  A second number bounds
the rounds of every loop that a program can make endless: those of `while`,
and the expansions of one form.
-/
import PocketLisp.Run.Application
import PocketLisp.Run.Evaluation

namespace PocketLisp

/-- How many calls may be active at the same time, and how many rounds a loop may take. -/
structure Allowance where
  calls : Nat
  rounds : Nat
  deriving DecidableEq, Repr

/-- What each activity does, apart from being counted as a nested step. -/
def perform (self : Recur) (rounds : Nat) : Recur
  | _, .eval form env => Run.form self rounds form env
  | _, .apply f args env => Run.apply self rounds f args env
  | _, .expand form env => Run.Expansion.wholly self rounds form env
  | _, .parse token mode global source => Run.Parsing.form self token mode global source
  | _, .emit channel content => Run.emit self channel content

/-- Carries out a call with at most `calls` calls active at the same time. -/
def run (rounds : Nat) : (calls : Nat) → Recur
  | 0, _, _ => Run.unfinished
  | calls + 1, _, c => c.nested (perform (run rounds calls) rounds c)

/-- Carries out a call within an allowance. -/
def Allowance.run (a : Allowance) : Recur := fun _ c => PocketLisp.run a.rounds a.calls c

end PocketLisp
