/-
PocketLisp/Run/Parsing.lean

Reading of forms.  A form is an atom, a list in parentheses, or a quote mark
and a form, which stands for a list headed by `quote`.

Data is read as it stands.  In code, a list is looked at as soon as it is
complete: if it is headed by `defmacro` it defines a macro, and if its head
names a macro it is expanded.  Quoted forms, parameter lists and the like are
data also inside code.
-/
import PocketLisp.Run.Scope

namespace PocketLisp

/-- How the element at a place of a list in code is read, behind a head. -/
def Mode.behind (head : Option Symbol) (place : Nat) : Mode :=
  match head.bind Symbol.keyword with
  | some (.form .quote) => .data
  | some (.form .lambda) => if place = 1 then .data else .code
  | some (.form .defun) | some .macroDef => if place = 2 then .data else .code
  | _ => .code

/-- How the next element of a list is read, after the elements before it. -/
def Mode.inside : Mode → (items : Array Value) → Mode
  | .data, _ => .data
  | .code, items => .behind (items[0]?.bind Value.symbol?) items.size

namespace Run.Parsing

/-- The value of an atom that is no number. -/
def atom (name : String) (global : FrameId) : Run Value := do
  let symbol ← intern global name
  match symbol.keyword with
  | some .nil => return .nil
  | some .t => return .t
  | _ => return .symbol symbol

/-- The list `(quote v)`. -/
def quoted (v : Value) (global : FrameId) : Run Value := do
  let symbol ← intern global (Keyword.form .quote).spelling
  Fresh.list [.symbol symbol, v]

/-- Lets the closure that the list `(defmacro name params body …)` describes expand the calls
with that name. -/
def defineExpander (items : List Value) (global : FrameId) : Run Value :=
  match items with
  | _ :: name :: params :: forms => do
    let symbol ← name.expectSymbol
    let c ← makeClosure (some symbol) params forms global
    change fun s => s.bindExpander global symbol c.index
    return .t
  | _ => fault (.arity Keyword.macroDef.spelling 2 (items.length - 1) true)

/-- What a list in code stands for, once it is complete. -/
def codeList (self : Recur) (items : List Value) (global : FrameId) : Run Value :=
  match items with
  | .symbol head :: _ =>
    if head.is .macroDef then defineExpander items global
    else do
      let form ← Fresh.list items
      match ← read fun s => s.expander? global head with
      | some _ => self (.expand form global)
      | none => return form
  | _ => Fresh.list items

/-- The elements of a list after those read, up to the closing parenthesis.  There are at most as
many as `bound` has characters: every element takes one at least, so `bound` can be the text that
is left to read. -/
def elements (self : Recur) (mode : Mode) (global : FrameId) :
    (bound : Source) → Array Value → Reading (List Value)
  | [], _ => throw .unexpectedEnd
  | _ :: bound, items => do
    match ← Reading.token with
    | .rightParen => return items.toList
    | .endOfInput => throw .unexpectedEnd
    | token =>
      let v ← self.parse token (mode.inside items) global
      elements self mode global bound (items.push v)

/-- A list whose opening parenthesis has been taken. -/
def list (self : Recur) (mode : Mode) (global : FrameId) : Reading Value := do
  let items ← elements self mode global (← MonadState.get) #[]
  match mode with
  | .data => .ofRun (Fresh.list items)
  | .code => .ofRun (codeList self items global)

/-- A form whose first token has been taken. -/
def form (self : Recur) (token : Token) (mode : Mode) (global : FrameId) : Reading Value :=
  match token with
  | .endOfInput => throw .unexpectedEnd
  | .rightParen => throw .extraneousClose
  | .leftParen => list self mode global
  | .quote => do
    let v ← self.form .data global
    .ofRun (quoted v global)
  | .number x => return .number x
  | .text content => .ofRun (Fresh.text content)
  | .symbol name => .ofRun (atom name global)

end Run.Parsing

namespace Run

/-- Reads and evaluates the forms of a text in a global frame, `fuel` of them at most; the result
is that of the last form. -/
def evaluateFrom (self : Recur) (global : FrameId) :
    (fuel : Nat) → (result : Value) → Source → Run Value
  | 0, _, _ => unfinished
  | fuel + 1, result, source =>
    let source := source.skip
    if source.isEmpty then return result
    else do
      let (form, rest) ← self.form .code global source
      let v ← self (.eval (← form) global)
      evaluateFrom self global fuel v rest

/-- Reads and evaluates the forms of a text in a global frame.  Every form takes a character at
least. -/
def evaluate (self : Recur) (global : FrameId) (source : Source) : Run Value :=
  evaluateFrom self global (source.length + 1) .nil source

/-- The forms of a text after those read, which are given from the last one; `fuel` of them at
most. -/
def drainFrom (self : Recur) (mode : Mode) (global : FrameId) :
    (fuel : Nat) → (forms : List Value) → Reading (List Value)
  | 0, _ => throw .unexpectedEnd
  | fuel + 1, forms => do
    modify Source.skip
    if (← MonadState.get : Source).isEmpty then return forms.reverse
    else
      let v ← self.form mode global
      drainFrom self mode global fuel (v :: forms)

/-- The forms of a text.  Every form takes a character at least. -/
def drain (self : Recur) (mode : Mode) (global : FrameId) : Reading (List Value) :=
  fun source => drainFrom self mode global (source.length + 1) [] source

/-- The forms of a text, read as code. -/
def readAll (self : Recur) (global : FrameId) : Reading (List Value) :=
  drain self .code global

end Run

end PocketLisp
