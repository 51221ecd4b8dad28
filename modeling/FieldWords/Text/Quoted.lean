import FieldWords.Text.Hidden

/-!
# Quoted text

Characters and strings in quotes, as diagnostics show them: the enclosing quote mark, the backslash
and the hidden characters are escaped, and everything else stands for itself.
-/

namespace FieldWords.Quoted

/-- One character between quote marks `mark`; a hidden one that has no short escape is written by
its number. -/
def escape (mark c : Char) : List Char :=
  if c = '\x00' then ['\\', '0']
  else if c = '\t' then ['\\', 't']
  else if c = '\n' then ['\\', 'n']
  else if c = '\r' then ['\\', 'r']
  else if c = '\\' ∨ c = mark then ['\\', c]
  else if Hidden.contains c then ['\\', 'u', '{'] ++ Nat.toDigits 16 c.toNat ++ ['}']
  else [c]

/-- Text between quote marks. -/
def enclose (mark : Char) (cs : List Char) : String :=
  String.ofList (mark :: cs.flatMap (escape mark) ++ [mark])

/-- A character in single quotes. -/
def char (c : Char) : String := enclose '\'' [c]

/-- A string in double quotes. -/
def string (s : String) : String := enclose '"' s.toList

end FieldWords.Quoted
