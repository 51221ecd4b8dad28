import FieldWords.Text.Decimal
import FieldWords.Text.Hex

/-!
# JSON tokens

A JSON text is a list of tokens. Reading tokens stops at the first place where none begins, which
leaves the token `bad`, so what stands before that place can still be used. A string whose escapes
leave a surrogate unpaired is a string but no text.
-/

namespace FieldWords.Json

/-- The tokens of a text. A number without sign, fraction and exponent is kept; of any other, and of
`null`, `true` and `false`, only the kind. -/
inductive Token where
  | openBrace
  | closeBrace
  | openBracket
  | closeBracket
  | comma
  | colon
  | string (text : Option String)
  | natural (n : Nat)
  | number
  | word
  | bad
  deriving DecidableEq

/-! ### Strings -/

/-- What stands for itself in a string, and what a numeric escape stands for. -/
inductive Piece where
  | char (c : Char)
  | unit (n : Nat)

/-- The characters with an escape of two characters. -/
def shortEscape? : Char → Option Char
  | '"' => some '"'
  | '\\' => some '\\'
  | '/' => some '/'
  | 'b' => some '\x08'
  | 'f' => some '\x0c'
  | 'n' => some '\n'
  | 'r' => some '\r'
  | 't' => some '\t'
  | _ => none

/-- The code unit that four digits write. -/
def unit? (a b c d : Char) : Option Nat := do
  let a ← Hex.digitOfCode? a.toNat
  let b ← Hex.digitOfCode? b.toNat
  let c ← Hex.digitOfCode? c.toNat
  let d ← Hex.digitOfCode? d.toNat
  return ((a * 16 + b) * 16 + c) * 16 + d

/-- The pieces up to the closing quote, and what follows it. -/
def pieces : List Char → Option (List Piece × List Char)
  | [] => none
  | '"' :: cs => some ([], cs)
  | '\\' :: 'u' :: a :: b :: c :: d :: cs => do
    let n ← unit? a b c d
    let (ps, rest) ← pieces cs
    return (.unit n :: ps, rest)
  | '\\' :: c :: cs => do
    let e ← shortEscape? c
    let (ps, rest) ← pieces cs
    return (.char e :: ps, rest)
  | c :: cs =>
    if c = '\\' ∨ c.toNat < 0x20 then none
    else do
      let (ps, rest) ← pieces cs
      return (.char c :: ps, rest)

/-- The text of pieces, in which surrogates stand in pairs. -/
def text? : List Piece → Option (List Char)
  | [] => some []
  | .char c :: ps => (text? ps).map (c :: ·)
  | .unit n :: ps =>
    if n < 0xD800 ∨ 0xDFFF < n then (text? ps).map (Char.ofNat n :: ·)
    else
      match ps with
      | .unit m :: rest =>
        if n < 0xDC00 ∧ 0xDC00 ≤ m ∧ m < 0xE000 then
          (text? rest).map (Char.ofNat (0x10000 + (n - 0xD800) * 0x400 + (m - 0xDC00)) :: ·)
        else none
      | _ => none

/-- The string after an opening quote. -/
def scanString (cs : List Char) : Option (Token × List Char) := do
  let (ps, rest) ← pieces cs
  return (.string ((text? ps).map String.ofList), rest)

/-! ### Numbers and words -/

/-- One digit or more, and what follows them. -/
def digits (cs : List Char) : Option (List Char × List Char) :=
  if cs.takeWhile Char.isDigit = [] then none
  else some (cs.takeWhile Char.isDigit, cs.dropWhile Char.isDigit)

/-- What follows an exponent, if one begins here. -/
def scanExponent : List Char → Option (List Char)
  | 'e' :: '+' :: cs | 'e' :: '-' :: cs | 'E' :: '+' :: cs | 'E' :: '-' :: cs
  | 'e' :: cs | 'E' :: cs => (digits cs).map (·.2)
  | cs => some cs

/-- What follows a fraction and an exponent, if they begin here. -/
def scanFraction : List Char → Option (List Char)
  | '.' :: cs => do
    let (_, rest) ← digits cs
    scanExponent rest
  | cs => scanExponent cs

/-- An unsigned number: no zero stands in front of other digits. -/
def scanUnsigned (cs : List Char) : Option (Token × List Char) := do
  let (ds, rest) ← digits cs
  let tail ← scanFraction rest
  if ds.head? = some '0' ∧ ds ≠ ['0'] then none
  else if tail.length = rest.length then return (.natural (Decimal.value ds), rest)
  else return (.number, tail)

/-- A number. -/
def scanNumber : List Char → Option (Token × List Char)
  | '-' :: cs => (scanUnsigned cs).map fun r => (.number, r.2)
  | cs => scanUnsigned cs

/-- One of the three words. -/
def scanWord : List Char → Option (Token × List Char)
  | 'n' :: 'u' :: 'l' :: 'l' :: cs => some (.word, cs)
  | 't' :: 'r' :: 'u' :: 'e' :: cs => some (.word, cs)
  | 'f' :: 'a' :: 'l' :: 's' :: 'e' :: cs => some (.word, cs)
  | _ => none

/-! ### Texts -/

def isBlank (c : Char) : Bool := c = ' ' || c = '\t' || c = '\n' || c = '\r'

/-- The tokens of one character. -/
def punctuation? : Char → Option Token
  | '{' => some .openBrace
  | '}' => some .closeBrace
  | '[' => some .openBracket
  | ']' => some .closeBracket
  | ',' => some .comma
  | ':' => some .colon
  | _ => none

/-- A token of several characters, by the first of them. -/
def scan (c : Char) (cs : List Char) : Option (Token × List Char) :=
  if c = '"' then scanString cs
  else if c = '-' || c.isDigit then scanNumber (c :: cs)
  else scanWord (c :: cs)

/-- The tokens of a text. Each token takes a character, so the rest of the text is shorter. -/
def lex : List Char → List Token
  | [] => []
  | c :: cs =>
    if isBlank c then lex cs
    else
      match punctuation? c with
      | some t => t :: lex cs
      | none =>
        match scan c cs with
        | some (t, rest) => if rest.length ≤ cs.length then t :: lex rest else [.bad]
        | none => [.bad]
termination_by cs => cs.length

end FieldWords.Json
