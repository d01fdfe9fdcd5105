/-
PocketLisp/Fault.lean

What can go wrong when a text is read or a form is evaluated.  A fault names
its cause; values that take part in it are kept in their printed form.  The
wording is in `message` alone.
-/

namespace PocketLisp

/-- The cause of a failure. -/
inductive Fault where
  /-- the text ends inside a form, or where one has to start -/
  | unexpectedEnd
  /-- a closing parenthesis where a form has to start -/
  | extraneousClose
  | undefinedSymbol (name : String)
  | undefinedFunction (form : String)
  /-- a call with the wrong number of arguments -/
  | arity (operator : String) (expected actual : Nat) (atLeast : Bool)
  | symbolExpected (got : String)
  | listExpected (got : String)
  | invalidParameters (reason : String)
  /-- an operation on operands that it does not take -/
  | invalidOperation (operator : String) (operands : List String)
  /-- a host value of a type that has no counterpart -/
  | notConvertible (type : String)
  | divisionByZero
  | constantViolation (name : String)
  | io (operation message : String)
  /-- reading, expanding and evaluating were nested deeper than allowed -/
  | stackExhausted (depth : Nat)
  /-- the initial program could not be read or failed -/
  | startup (path : String) (source : Fault)
  deriving DecidableEq, Repr

namespace Fault

/-- Families of faults. -/
inductive Family where
  | parse | lookup | arity | type | arithmetic | constant | io | fatal
  deriving DecidableEq, Repr

/-- The family of a fault. -/
def family : Fault → Family
  | .unexpectedEnd | .extraneousClose => .parse
  | .undefinedSymbol _ | .undefinedFunction _ => .lookup
  | .arity .. => .arity
  | .symbolExpected _ | .listExpected _ | .invalidParameters _ | .invalidOperation ..
  | .notConvertible _ => .type
  | .divisionByZero => .arithmetic
  | .constantViolation _ => .constant
  | .io .. => .io
  | .stackExhausted _ | .startup .. => .fatal

/-- The text of a fault. -/
def message : Fault → String
  | .unexpectedEnd => "Unexpected end of stream"
  | .extraneousClose => "Extraneous )"
  | .undefinedSymbol name => "Undefined symbol " ++ name
  | .undefinedFunction form => "Undefined function " ++ form
  | .arity operator expected actual atLeast =>
    operator ++ ": Expected " ++ (if atLeast then "at least " else "") ++ toString expected ++
      " parameter(s), got " ++ toString actual
  | .symbolExpected got => "Expected symbol, got " ++ got
  | .listExpected got => "Expected list, got " ++ got
  | .invalidParameters reason => "Invalid parameter list: " ++ reason
  | .invalidOperation operator operands =>
    "Invalid operation: (" ++ operator ++ String.join (operands.map (" " ++ ·)) ++ ")"
  | .notConvertible type => "Host value of type " ++ type ++ " could not be converted"
  | .divisionByZero => "Division by zero"
  | .constantViolation name => name ++ " is a constant and can not be changed"
  | .io operation message => operation ++ ": " ++ message
  | .stackExhausted depth => "Stack exhausted after " ++ toString depth ++ " nested evaluations"
  | .startup path source => "Failed to load " ++ path ++ ": " ++ source.message

end Fault

end PocketLisp
