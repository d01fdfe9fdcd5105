/-
PocketLisp/Options.lean

The options of the command line and the text that explains them.
-/
import PocketLisp.Engine

namespace PocketLisp

/-- What the command line asks for. -/
structure Options where
  /-- no initial program is run -/
  noInit : Bool
  /-- names are folded to upper case -/
  upper : Bool
  /-- only the explanation of the options is wanted -/
  help : Bool
  /-- the program to run; without one, forms are read from the standard input -/
  file : Option String
  deriving DecidableEq, Repr

/-- What can be wrong with a command line. -/
inductive OptionFault where
  | unknown (flag : String)
  | tooMany
  deriving DecidableEq, Repr

/-- The text of a fault of the command line. -/
def OptionFault.message : OptionFault → String
  | .unknown flag => "Unknown option: " ++ flag
  | .tooMany => "Too many arguments"

namespace Options

/-- The options of an empty command line. -/
def empty : Options := ⟨false, false, false, none⟩

/-- The options after one more argument.  What starts with two hyphens has to be a known flag;
there is at most one other argument. -/
def add (o : Options) (arg : String) : Except OptionFault Options :=
  if arg = "--no-init" then .ok { o with noInit := true }
  else if arg = "--upper" then .ok { o with upper := true }
  else if arg = "--help" ∨ arg = "-h" then .ok { o with help := true }
  else if ['-', '-'].isPrefixOf arg.toList then .error (.unknown arg)
  else match o.file with
    | some _ => .error .tooMany
    | none => .ok { o with file := some arg }

/-- The options of a command line; the first fault counts. -/
def ofArgs (args : List String) : Except OptionFault Options := args.foldlM add empty

/-- The configuration of the engine. -/
def config (o : Options) : Config where
  caseRule := if o.upper then .upper else Config.standard.caseRule
  initFile := if o.noInit then none else Config.standard.initFile
  maxDepth := Config.standard.maxDepth

/-- The explanation of the options. -/
def usage : String :=
  "Usage:\n" ++
  "  nlisp [--no-init] [--upper]          Start interactive REPL\n" ++
  "  nlisp [--no-init] [--upper] <file>   Run a Lisp file\n" ++
  "  nlisp --help                         Show this help message\n\n" ++
  "Options:\n" ++
  "  --no-init   Skip loading Init.lsp from the working directory\n" ++
  "  --upper     Fold symbol names to upper case"

/-- The file in the home directory that keeps the forms that have been typed. -/
def historyFile : String := ".nlisp_history"

end Options

end PocketLisp
