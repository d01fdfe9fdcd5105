/-
PocketLisp/Symbol/Table.lean

Symbols and the tables they are interned in.

A table holds folded names in the order in which they were interned and only
grows.  A symbol is the place of a name in a table; the table is told from
others by a number, so symbols of two tables are never equal, whatever their
names.
-/
import PocketLisp.Symbol.Keyword

namespace PocketLisp

/-- An interned name. -/
structure Symbol where
  /-- how many names the table held before this one -/
  index : Nat
  /-- the table -/
  realm : Nat
  /-- the folded name -/
  name : String
  keyword : Option Keyword
  deriving DecidableEq, Repr, Inhabited

/-- Whether a symbol is this keyword. -/
def Symbol.is (s : Symbol) (k : Keyword) : Bool := s.keyword == some k

/-- The special form of a list with this head. -/
def Symbol.specialForm? (s : Symbol) : Option SpecialForm :=
  match s.keyword with
  | some (.form f) => some f
  | _ => none

/-- A table of interned names. -/
structure SymbolTable where
  /-- the number that tells this table from others -/
  realm : Nat
  caseRule : CaseRule
  /-- the folded names, the newest first -/
  names : List String
  /-- no generated symbol has had this number or a higher one -/
  counter : Nat
  deriving DecidableEq, Repr

namespace SymbolTable

/-- A table without names. -/
def empty (realm : Nat) (caseRule : CaseRule) : SymbolTable :=
  ⟨realm, caseRule, [], 0⟩

/-- The number of interned names. -/
def size (t : SymbolTable) : Nat := t.names.length

/-- How many names were interned before this one; the newest name comes first. -/
def indexOf? (folded : String) : List String → Option Nat
  | [] => none
  | name :: older => if name == folded then some older.length else indexOf? folded older

/-- The symbol of a folded name at a place of the table. -/
def symbolAt (t : SymbolTable) (index : Nat) (folded : String) : Symbol :=
  ⟨index, t.realm, folded, Keyword.recognize? t.caseRule folded⟩

/-- The symbol of a name, if it has been interned. -/
def lookup? (t : SymbolTable) (name : String) : Option Symbol :=
  let folded := t.caseRule.fold name
  (indexOf? folded t.names).map fun index => t.symbolAt index folded

/-- The symbol of a name, which is interned if it has not been before. -/
def intern (t : SymbolTable) (name : String) : Symbol × SymbolTable :=
  let folded := t.caseRule.fold name
  match indexOf? folded t.names with
  | some index => (t.symbolAt index folded, t)
  | none => (t.symbolAt t.size folded, { t with names := folded :: t.names })

/-- The name of the generated symbol of a number. -/
def generatedName (n : Nat) : String := "#:G" ++ toString n

/-- Tries numbers from `n` on, at most `tries + 1` of them, until one gives a name that has not
been interned, and interns that. -/
def generateFrom (t : SymbolTable) (n : Nat) : (tries : Nat) → Symbol × SymbolTable
  | 0 => intern { t with counter := n + 1 } (generatedName n)
  | tries + 1 =>
    match t.lookup? (generatedName n) with
    | none => intern { t with counter := n + 1 } (generatedName n)
    | some _ => generateFrom t (n + 1) tries

/-- A symbol that has not been interned before.  Among as many names as the table holds, and one
more, there is one that it does not hold. -/
def generate (t : SymbolTable) : Symbol × SymbolTable :=
  t.generateFrom (max t.counter t.size) t.size

end SymbolTable

end PocketLisp
