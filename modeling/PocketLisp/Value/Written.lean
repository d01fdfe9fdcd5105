/-
PocketLisp/Value/Written.lean

The printed form of a value.  Data made of lists, symbols, numbers and texts
is printed in the form in which it is read; functions are not.
-/
import PocketLisp.Number.Written
import PocketLisp.Text.Quoted
import PocketLisp.Value.Basic

namespace PocketLisp

/-- The printed form of a function. -/
def Function.written : Function → List Char
  | .native f => "<builtin ".toList ++ f.name.toList ++ ['>']
  | .closure ⟨_, some name⟩ => "<closure ".toList ++ name.name.toList ++ ['>']
  | .closure ⟨_, none⟩ => "<closure>".toList

namespace Value

mutual

/-- The printed form of a value. -/
def written : Value → List Char
  | .nil => ['n', 'i', 'l']
  | .t => ['t']
  | .number x => Number.written x
  | .text _ content => Text.quote content.toList
  | .symbol s => s.name.toList
  | .cons _ a d => '(' :: (written a ++ writtenTail d)
  | .function f => f.written

/-- The printed form of the rest of a list, with its closing parenthesis. -/
def writtenTail : Value → List Char
  | .nil => [')']
  | .cons _ a d => ' ' :: (written a ++ writtenTail d)
  | .t => [' ', '.', ' ', 't', ')']
  | .number x => " . ".toList ++ Number.written x ++ [')']
  | .text _ content => " . ".toList ++ Text.quote content.toList ++ [')']
  | .symbol s => " . ".toList ++ s.name.toList ++ [')']
  | .function f => " . ".toList ++ f.written ++ [')']

end

/-! ### Printing -/

mutual

/-- Puts the printed form of a value behind a text. -/
def printOnto (acc : String) : Value → String
  | .cons _ a d => printTailOnto (printOnto (acc.push '(') a) d
  | .nil => acc ++ "nil"
  | .t => acc.push 't'
  | .number x => acc ++ String.ofList (Number.written x)
  | .text _ content => acc ++ String.ofList (Text.quote content.toList)
  | .symbol s => acc ++ s.name
  | .function f => acc ++ String.ofList f.written

/-- Puts the printed form of the rest of a list behind a text. -/
def printTailOnto (acc : String) : Value → String
  | .nil => acc.push ')'
  | .cons _ a d => printTailOnto (printOnto (acc.push ' ') a) d
  | .t => acc ++ " . t)"
  | .number x => acc ++ String.ofList (" . ".toList ++ Number.written x ++ [')'])
  | .text _ content => acc ++ String.ofList (" . ".toList ++ Text.quote content.toList ++ [')'])
  | .symbol s => acc ++ String.ofList (" . ".toList ++ s.name.toList ++ [')'])
  | .function f => acc ++ String.ofList (" . ".toList ++ f.written ++ [')'])

end

mutual

theorem toList_printOnto (v : Value) (acc : String) :
    (printOnto acc v).toList = acc.toList ++ v.written := by
  cases v with
  | cons id a d =>
    simp [printOnto, written, toList_printTailOnto d, toList_printOnto a]
  | _ => simp [printOnto, written]

theorem toList_printTailOnto (v : Value) (acc : String) :
    (printTailOnto acc v).toList = acc.toList ++ v.writtenTail := by
  cases v with
  | cons id a d =>
    simp [printTailOnto, writtenTail, toList_printTailOnto d, toList_printOnto a]
  | _ => simp [printTailOnto, writtenTail]

end

/-- The printed form of a value as a text. -/
def print (v : Value) : String := printOnto "" v

@[simp] theorem toList_print (v : Value) : v.print.toList = v.written := by
  simp [print, toList_printOnto]

end Value

end PocketLisp
