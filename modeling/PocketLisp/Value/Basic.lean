/-
PocketLisp/Value/Basic.lean

Values.  Forms and data are the same values: a form is a value that is going
to be evaluated.

Cells and texts carry a number by which one object is told from another of the
same content; whoever makes a new one takes a number that has not been used.
Native functions carry such a number too, and a closure is the place of its
code in the store.  Nothing else has an identity of its own.
-/
import PocketLisp.Arity
import PocketLisp.Primitive

namespace PocketLisp

/-- The number of an object. -/
abbrev ObjectId := Nat

/-- The place of a frame in the store. -/
abbrev FrameId := Nat

/-- A function that is not written in the language. -/
structure Native where
  id : ObjectId
  name : String
  arity : Arity
  body : Primitive
  deriving DecidableEq, Repr

/-- The place of a closure in the store, with the name it was defined by. -/
structure ClosureRef where
  index : Nat
  name : Option Symbol
  deriving DecidableEq, Repr

/-- What can be called. -/
inductive Function where
  | native (f : Native)
  | closure (f : ClosureRef)
  deriving DecidableEq, Repr

/-- Values. -/
inductive Value where
  /-- the empty list, which is also falsity -/
  | nil
  | t
  | number (x : Float)
  | text (id : ObjectId) (content : String)
  | symbol (s : Symbol)
  /-- a cell -/
  | cons (id : ObjectId) (car cdr : Value)
  | function (f : Function)
  deriving DecidableEq, Repr

namespace Value

/-! ### Kinds of values -/

/-- Everything but the empty list counts as true. -/
def isTrue : Value → Bool
  | .nil => false
  | _ => true

def isNil : Value → Bool
  | .nil => true
  | _ => false

def isCons : Value → Bool
  | .cons .. => true
  | _ => false

/-- The symbol that a value is, if it is one. -/
def symbol? : Value → Option Symbol
  | .symbol s => some s
  | _ => none

def isSymbol : Value → Bool
  | .symbol _ => true
  | _ => false

def isNumber : Value → Bool
  | .number _ => true
  | _ => false

def isText : Value → Bool
  | .text .. => true
  | _ => false

def isFunction : Value → Bool
  | .function _ => true
  | _ => false

/-- Whether a value is a cell or the empty list. -/
def isList : Value → Bool
  | .nil | .cons .. => true
  | _ => false

/-- The truth value of a decision. -/
def ofBool (b : Bool) : Value := if b then .t else .nil

/-- The name of the kind of a value. -/
def kind : Value → String
  | .nil => "nil"
  | .t => "t"
  | .number _ => "number"
  | .text .. => "string"
  | .symbol _ => "symbol"
  | .cons .. => "cons"
  | .function (.native _) => "builtin"
  | .function (.closure _) => "closure"

/-! ### Lists -/

/-- The items from a tail on, after those collected; a tail that is no list is the last item. -/
def collectItems (collected : List Value) : Value → List Value
  | .nil => collected.reverse
  | .cons _ a d => collectItems (a :: collected) d
  | v => (v :: collected).reverse

/-- The items of a list.  A dotted tail is the last item; what is no list has no items. -/
def items : Value → List Value
  | .cons _ a d => collectItems [a] d
  | _ => []

/-- The items from a tail on, said without an accumulator. -/
def tailItems : Value → List Value
  | .nil => []
  | .cons _ a d => a :: tailItems d
  | v => [v]

theorem collectItems_eq (v : Value) (collected : List Value) :
    collectItems collected v = collected.reverse ++ tailItems v := by
  induction v generalizing collected with
  | cons id a d _ ih => simp [collectItems, tailItems, ih]
  | _ => simp [collectItems, tailItems]

@[simp] theorem items_cons (id : ObjectId) (a d : Value) :
    (Value.cons id a d).items = a :: tailItems d := by
  simp [items, collectItems_eq]

@[simp] theorem items_nil : Value.nil.items = [] := rfl

/-- A list of new cells, numbered from `next` on, in front of a tail; the items are given from
the last one.  The second component is the first number that is still unused. -/
def chain (next : ObjectId) : (reversed : List Value) → (tail : Value) → Value × ObjectId
  | [], tail => (tail, next)
  | v :: vs, tail => chain (next + 1) vs (.cons next v tail)

/-- The tail that ends a list: the empty list for a proper one. -/
def finalTail : Value → Value
  | .cons _ _ d => finalTail d
  | v => v

end Value

end PocketLisp
