/-
PocketLisp/Value/Fresh.lean

Computations on values that may make new cells and texts or fail, and that
touch nothing else.  Their only state is the first unused object number.
-/
import PocketLisp.Value.Basic

namespace PocketLisp

/-- Computations that take object numbers and may fail. -/
abbrev Fresh (α : Type) := ExceptT Fault (StateM ObjectId) α

namespace Fresh

/-- An unused object number. -/
def id : Fresh ObjectId := modifyGet fun next => (next, next + 1)

/-- A new text. -/
def text (content : String) : Fresh Value :=
  modifyGet fun next => (.text next content, next + 1)

/-- A new cell. -/
def cons (car cdr : Value) : Fresh Value :=
  modifyGet fun next => (.cons next car cdr, next + 1)

/-- A list of new cells in front of a tail. -/
def listOnto (items : List Value) (tail : Value) : Fresh Value :=
  modifyGet fun next => Value.chain next items.reverse tail

/-- A list of new cells. -/
def list (items : List Value) : Fresh Value := listOnto items .nil

end Fresh

end PocketLisp
