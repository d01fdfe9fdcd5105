/-
PocketLisp/Console.lean

The program behind the command line: it runs one file, or it reads lines,
evaluates what they hold as soon as it is complete, and prints the results.

Everything here is a function of the arguments, the lines and the store, in
which the files are; what is left to the outside is to fetch lines and files
and to write texts.
-/
import PocketLisp.Options

namespace PocketLisp

/-! ### Complete input -/

/-- How many parentheses are open after a token; one that closes nothing is passed over. -/
def Token.openAfter (opened : Nat) : Token → Nat
  | .leftParen => opened + 1
  | .rightParen => opened - 1
  | _ => opened

/-- Whether a text ends outside of every list and every quoted text. -/
def isComplete (content : String) : Bool :=
  match Token.all content.toList with
  | (tokens, none, _) => tokens.foldl Token.openAfter 0 == 0
  | (_, some _, _) => false

namespace Console

/-! ### Output -/

/-- What is written on the two streams of the program. -/
structure Output where
  out : String
  err : String
  deriving DecidableEq, Repr

instance : Append Output := ⟨fun a b => ⟨a.out ++ b.out, a.err ++ b.err⟩⟩

/-- A text without a line end. -/
def Output.text (content : String) : Output := ⟨content, ""⟩

/-- A line of output. -/
def Output.line (content : String) : Output := ⟨content ++ "\n", ""⟩

/-- A line about an error. -/
def Output.errorLine (content : String) : Output := ⟨"", content ++ "\n"⟩

/-- How the program ends. -/
structure Outcome where
  code : Nat
  output : Output
  deriving DecidableEq, Repr

/-- The text about an evaluation that has no result. -/
def stopMessage : Stop → String
  | .fault f => f.message
  | .unfinished => "Evaluation was given up"

/-! ### Evaluation -/

/-- An engine that has run its initial program, and whose programs print into the transcript. -/
def engine (a : Allowance) (config : Config) : StateM Store (Except Stop Engine) :=
  ExceptT.run do
    let e ← Engine.create a config
    e.subscribe fun content => .note content (.done .nil)
    return e

/-- Evaluates a text.  The output is what has been printed meanwhile. -/
def evaluate (a : Allowance) (e : Engine) (content : String) :
    StateM Store (Output × Except Stop Value) := do
  modify fun s => { s with transcript := #[] }
  let r ← ExceptT.run (e.evaluate a content)
  let printed := (← get).transcript.toList
  return (.text (String.join (printed.map (· ++ "\n"))), r)

/-! ### Lines -/

/-- The lines of a text with their ends; the last one may lack its end. -/
def splitLines : List Char → List (List Char)
  | [] => []
  | '\n' :: cs => ['\n'] :: splitLines cs
  | c :: cs =>
    match splitLines cs with
    | [] => [[c]]
    | line :: lines => (c :: line) :: lines

/-- A line without its end, which is a line feed with or without a carriage return. -/
def dropLineEnd (line : List Char) : List Char :=
  match line.reverse with
  | '\n' :: '\r' :: cs => cs.reverse
  | '\n' :: cs => cs.reverse
  | _ => line

/-- Whether a line asks the loop to end. -/
def isExit (line : List Char) : Bool :=
  Text.trim line == "(exit)".toList || Text.trim line == "exit".toList

/-! ### The loop -/

/-- The state of the loop between two lines. -/
structure Loop where
  engine : Engine
  /-- the lines of an input that is not complete -/
  pending : String
  deriving DecidableEq, Repr

/-- What the loop writes when it starts. -/
def greeting : String :=
  "NLisp REPL\nType expressions to evaluate, or (exit) to quit\n\n"

/-- What the loop writes before it takes a line. -/
def Loop.prompt (l : Loop) : String := if l.pending.isEmpty then "> " else "... "

/-- What the loop writes about an input that is complete. -/
def answer (a : Allowance) (e : Engine) (content : String) : StateM Store Output := do
  if (Text.trim content.toList).isEmpty then return .text ""
  match ← evaluate a e content with
  | (printed, .ok v) => return printed ++ .line v.print
  | (printed, .error stop) => return printed ++ .errorLine ("Error: " ++ stopMessage stop)

/-- What the loop writes after a line, and the loop after that; `none` if the line ends it. -/
def Loop.feed (a : Allowance) (l : Loop) (line : List Char) :
    StateM Store (Option (Output × Loop)) := do
  let line := dropLineEnd line
  if l.pending.isEmpty && isExit line then return none
  let content := l.pending ++ String.ofList line ++ "\n"
  if isComplete content then
    return some (← answer a l.engine content, { l with pending := "" })
  else return some (.text "", { l with pending := content })

/-- What the loop writes while it takes lines, up to their end. -/
def Loop.writes (a : Allowance) (l : Loop) : List (List Char) → StateM Store Output
  | [] => return .text l.prompt
  | line :: lines => do
    match ← l.feed a line with
    | none => return .text l.prompt
    | some (output, next) => return .text l.prompt ++ output ++ (← next.writes a lines)

/-! ### The program -/

/-- Runs a file. -/
def runFile (a : Allowance) (e : Engine) (path : String) : StateM Store Outcome := do
  match ← modifyGet fun s => s.readFile path with
  | .error f => return ⟨1, .errorLine ("Failed to read file '" ++ path ++ "': " ++ f.message)⟩
  | .ok content =>
    match ← evaluate a e content with
    | (printed, .ok v) => return ⟨0, printed ++ .line v.print⟩
    | (printed, .error stop) =>
      return ⟨1, printed ++ .errorLine ("Evaluation error: " ++ stopMessage stop)⟩

/-- What the program does with its arguments: it ends, or it starts the loop. -/
def start (a : Allowance) (args : List String) : StateM Store (Outcome ⊕ Loop) := do
  match Options.ofArgs args with
  | .error f =>
    return .inl ⟨1, .errorLine ("Error: " ++ f.message) ++ .errorLine Options.usage⟩
  | .ok o =>
    if o.help then return .inl ⟨0, .errorLine Options.usage⟩
    match ← engine a o.config with
    | .error stop => return .inl ⟨1, .errorLine ("Error: " ++ stopMessage stop)⟩
    | .ok e =>
      match o.file with
      | some path => return .inl (← runFile a e path)
      | none => return .inr ⟨e, ""⟩

/-- The whole program: what it does with its arguments and its standard input. -/
def program (a : Allowance) (args : List String) (input : String) : StateM Store Outcome := do
  match ← start a args with
  | .inl outcome => return outcome
  | .inr loop =>
    return ⟨0, .text greeting ++ (← loop.writes a (splitLines input.toList))⟩

/-- Runs the program over a tree of files. -/
def run (a : Allowance) (args : List String) (files : FileTree) (input : String) : Outcome :=
  (program a args input (Store.empty files)).1

end Console

end PocketLisp
