/-
PocketLisp/Main.lean

The command line: fetches lines and files and writes what the program behind
it says.

That program is a function, so a step of it can be taken again.  A step that
has looked for a file which has not been fetched is taken once more with that
file, until nothing is missing.
-/
import PocketLisp.Console

namespace PocketLisp.Console

/-- How much an evaluation may take: more than any machine gives. -/
def allowance : Allowance := ⟨1000000000, 1000000000000⟩

/-- Writes output on the two streams. -/
def write (output : Output) : IO Unit := do
  IO.print output.out
  (← IO.getStdout).flush
  IO.eprint output.err

/-- The files at paths that have not been fetched; those that cannot be read are left out. -/
def fetch (files : FileTree) (paths : List String) : IO (List (String × List UInt8)) := do
  let mut found := []
  for path in paths.eraseDups do
    if (files.named.lookup path).isNone then
      try
        found := (path, (← IO.FS.readBinFile path).toList) :: found
      catch _ => pure ()
  return found

/-- Takes a step, and takes it again as long as it looks for files that can be fetched. -/
partial def settle {α : Type} (store : Store) (step : StateM Store α) : IO (α × Store) := do
  let (result, next) := step { store with sought := [] }
  let found ← fetch store.files next.sought
  if found.isEmpty then return (result, next)
  else
    let files := { store.files with named := found ++ store.files.named }
    settle { store with files := files } step

/-- Takes lines until the input or the loop ends. -/
partial def converse (loop : Loop) (store : Store) : IO Unit := do
  write (.text loop.prompt)
  let line ← (← IO.getStdin).getLine
  if line.isEmpty then return ()
  match ← settle store (loop.feed allowance line.toList) with
  | (none, _) => return ()
  | (some (output, next), store) =>
    write output
    converse next store

end PocketLisp.Console

open PocketLisp PocketLisp.Console in
/-- Runs the program. -/
def main (args : List String) : IO UInt32 := do
  match ← settle (Store.empty .empty) (start allowance args) with
  | (.inl outcome, _) =>
    write outcome.output
    return outcome.code.toUInt32
  | (.inr loop, store) =>
    write (.text greeting)
    converse loop store
    return 0
