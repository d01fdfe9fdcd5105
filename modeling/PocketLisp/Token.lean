/-
PocketLisp/Token.lean

Tokens, and how they are taken from the front of a text.

What has not been read of a text is a list of characters.  `Token.next` skips
blanks and comments and takes one token; it fails only inside a text that is
not closed, and then nothing of the input remains.  An atom runs up to the
next delimiter and is a number if it is a decimal literal, else a symbol.
-/
import PocketLisp.Fault
import PocketLisp.Number.Literal
import PocketLisp.Text.Blank
import PocketLisp.Text.Quoted

namespace PocketLisp

/-- The part of a text that has not been read yet. -/
abbrev Source := List Char

/-- Tokens. -/
inductive Token where
  | leftParen
  | rightParen
  | quote
  | symbol (name : String)
  | number (x : Float)
  | text (content : String)
  | endOfInput
  deriving DecidableEq, Repr

/-! ### Blanks and comments -/

/-- Skips blanks and comments; `inComment` tells whether the text starts inside a comment. -/
def Source.skipFrom (inComment : Bool) : Source → Source
  | [] => []
  | c :: cs =>
    if inComment then Source.skipFrom (c ≠ '\n') cs
    else if Text.isBlank c then Source.skipFrom false cs
    else if c = ';' then Source.skipFrom true cs
    else c :: cs

/-- Skips blanks and comments. -/
def Source.skip (s : Source) : Source := Source.skipFrom false s

namespace Token

/-! ### Texts and atoms -/

/-- The content of a text up to its closing quote and what follows, after the characters of
`collected`, which are given from the last one; `none` if it is not closed. -/
def takeText (collected : List Char) : Source → Option (List Char × Source)
  | [] => none
  | '"' :: cs => some (collected.reverse, cs)
  | ['\\'] => none
  | '\\' :: c :: cs => takeText (Text.unescape c :: collected) cs
  | c :: cs => takeText (c :: collected) cs

/-- Whether a character ends an atom. -/
def isDelimiter (c : Char) : Bool :=
  Text.isBlank c || c == '(' || c == ')' || c == '"' || c == ';'

/-- What an atom is. -/
def ofAtom (cs : List Char) : Token :=
  match Number.parse? cs with
  | some x => .number x
  | none => .symbol (String.ofList cs)

/-! ### One token -/

/-- The token at the front of a text that starts with no blank and no comment. -/
def take : Source → Except Fault Token × Source
  | [] => (.ok .endOfInput, [])
  | '(' :: cs => (.ok .leftParen, cs)
  | ')' :: cs => (.ok .rightParen, cs)
  | '\'' :: cs => (.ok .quote, cs)
  | '"' :: cs =>
    match takeText [] cs with
    | some (content, rest) => (.ok (.text (String.ofList content)), rest)
    | none => (.error .unexpectedEnd, [])
  | c :: cs =>
    let s := c :: cs
    (.ok (ofAtom (s.takeWhile fun c => !isDelimiter c)), s.dropWhile fun c => !isDelimiter c)

/-- The first token of a text, and the text behind it. -/
def next (s : Source) : Except Fault Token × Source := take s.skip

/-- The tokens of a text up to its end or to a fault, at most `fuel` of them, after those of
`collected`, which are given from the last one. -/
def collect (collected : List Token) :
    (fuel : Nat) → Source → List Token × Option Fault × Source
  | 0, s => (collected.reverse, none, s)
  | fuel + 1, s =>
    match next s with
    | (.ok .endOfInput, rest) => (collected.reverse, none, rest)
    | (.ok token, rest) => collect (token :: collected) fuel rest
    | (.error f, rest) => (collected.reverse, some f, rest)

/-- The tokens of a text up to its end or to a fault, and what remains of the text.  Every token
takes a character at least. -/
def all (s : Source) : List Token × Option Fault × Source := collect [] (s.length + 1) s

end Token

end PocketLisp
