/-
PocketLisp/Text/Quoted.lean

The written form of a text: between double quotes, with line feed, tab,
carriage return, backslash and double quote written as an escape of two
characters.  `unescape` is the meaning of the character after a backslash;
every character that no escape names stands for itself.
-/

namespace PocketLisp.Text

/-- How one character is written inside quotes. -/
def escapeChar : Char → List Char
  | '\n' => ['\\', 'n']
  | '\t' => ['\\', 't']
  | '\r' => ['\\', 'r']
  | '\\' => ['\\', '\\']
  | '"' => ['\\', '"']
  | c => [c]

/-- What a character after a backslash stands for. -/
def unescape : Char → Char
  | 'n' => '\n'
  | 'r' => '\r'
  | 't' => '\t'
  | c => c

/-- The written form of a text. -/
def quote (cs : List Char) : List Char :=
  '"' :: cs.flatMap escapeChar ++ ['"']

end PocketLisp.Text
