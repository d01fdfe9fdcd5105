/-
PocketLisp/Symbol/Keyword.lean

Case rules for symbol names, and the keywords: the names that reading and
evaluation treat by their structure.

A name is folded before it is looked up: it is brought into normalization form
C and, under the upper-case rule, upper-cased after that.
-/
import PocketLisp.Text.Normal
import PocketLisp.Text.UpperCase

namespace PocketLisp

/-! ### Case rules -/

/-- How symbol names are folded. -/
inductive CaseRule where
  /-- `foo` and `FOO` are two names -/
  | preserve
  /-- `foo` and `FOO` are both the name `FOO` -/
  | upper
  deriving DecidableEq, Repr

/-- The folded form of a name, character by character. -/
def CaseRule.foldChars : CaseRule → List Char → List Char
  | .preserve, cs => Text.normalForm cs
  | .upper, cs => Text.upper (Text.normalForm cs)

/-- The folded form of a name. -/
def CaseRule.fold (rule : CaseRule) (name : String) : String :=
  String.ofList (rule.foldChars name.toList)

/-! ### Keywords -/

/-- The forms that are evaluated by a rule of their own and not as a call. -/
inductive SpecialForm where
  | quote | ifThenElse | progn | define | setq | lambda | defun | whileLoop
  deriving DecidableEq, Repr

/-- The names with a meaning of their own. -/
inductive Keyword where
  /-- the head of a special form -/
  | form (f : SpecialForm)
  /-- the head of a definition that reading carries out -/
  | macroDef
  /-- what stands in front of the last parameter of a function of any number of arguments -/
  | rest
  | nil
  | t
  deriving DecidableEq, Repr

/-- The spelling of the head of a special form in source text, before folding. -/
def SpecialForm.spelling : SpecialForm → String
  | .quote => "quote"
  | .ifThenElse => "if"
  | .progn => "progn"
  | .define => "define"
  | .setq => "setq"
  | .lambda => "lambda"
  | .defun => "defun"
  | .whileLoop => "while"

namespace Keyword

/-- All keywords. -/
def all : List Keyword :=
  [.form .quote, .form .ifThenElse, .form .progn, .form .define, .form .setq, .form .lambda,
    .form .defun, .form .whileLoop, .macroDef, .rest, .nil, .t]

/-- The spelling of a keyword in source text, before folding. -/
def spelling : Keyword → String
  | .form f => f.spelling
  | .macroDef => "defmacro"
  | .rest => "&rest"
  | .nil => "nil"
  | .t => "t"

/-- The keyword that a folded name is. -/
def recognize? (rule : CaseRule) (folded : String) : Option Keyword :=
  all.find? fun k => rule.fold k.spelling == folded

theorem mem_all (k : Keyword) : k ∈ all := by
  rcases k with f | _ | _ | _ | _
  · cases f <;> decide
  all_goals decide

end Keyword

end PocketLisp
