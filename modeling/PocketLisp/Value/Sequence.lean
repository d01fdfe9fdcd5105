/-
PocketLisp/Value/Sequence.lean

Sequences: lists, and texts as sequences of clusters.
-/
import PocketLisp.Number.Progression
import PocketLisp.Text.Cluster
import PocketLisp.Value.Access
import PocketLisp.Value.Fresh

namespace PocketLisp

/-- The clusters of a text. -/
def clusters (content : String) : List String :=
  (Text.Cluster.split content.toList).map String.ofList

namespace Value

/-- The elements of a sequence: the items of a list, or a new text for every cluster. -/
def elements : Value → Fresh (List Value)
  | .text _ content => (clusters content).mapM Fresh.text
  | v => v.listItems

/-- The number of elements of a sequence. -/
def length : Value → Except Fault Value
  | .text _ content => .ok (.number (Float.ofNat (clusters content).length))
  | v =>
    if v.isList then .ok (.number (Float.ofNat v.items.length))
    else .error (.refused "length" [v])

/-- A sequence with its elements in the opposite order. -/
def reverse : Value → Fresh Value
  | .text _ content => Fresh.text (String.join (clusters content).reverse)
  | v => do Fresh.list (← v.listItems).reverse

/-- `(range stop)`, `(range start stop)` or `(range start stop step)`: the progression from
`start` on of what comes before `stop`. -/
def range (args : List Value) : Fresh Value := do
  let build (start stop step : Float) : Fresh Value :=
    match Number.floating.progression? start stop step with
    | some xs => Fresh.list (xs.map .number)
    | none => throw (.refused "range" args)
  let numbers : List Float ← (args.mapM (expectNumber "range") : Except Fault (List Float))
  match numbers with
  | [stop] => build 0.0 stop 1.0
  | [start, stop] => build start stop 1.0
  | [start, stop, step] => build start stop step
  | xs => throw (.arity "range" 3 xs.length false)

/-- `(substring text from)` or `(substring text from to)`, counted in clusters. -/
def substring (args : List Value) : Fresh Value := do
  let cut (v first : Value) (last? : Option Value) : Fresh Value := do
    let pieces := clusters (← expectText "substring" v)
    let start ← expectIndex "substring" first
    let stop ← match last? with
      | some last => expectIndex "substring" last
      | none => pure pieces.length
    if stop < start ∨ pieces.length < stop then throw (.refused "substring" args)
    else Fresh.text (String.join ((pieces.take stop).drop start))
  match args with
  | [v, first] => cut v first none
  | [v, first, last] => cut v first (some last)
  | _ => throw (.arity "substring" 3 args.length false)

end Value

end PocketLisp
