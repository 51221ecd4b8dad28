import FieldWords.Address
import FieldWords.Sequence

/-!
# Writing JSON

Values are written without white space: field elements and addresses as strings with their
numerals, integers of 128 bits as numbers, integers of 256 bits as objects, sequences as lists.
-/

namespace FieldWords.Json

/-- A numeral in quotes. -/
def writeFelt (a : Felt) : String := "\"" ++ a.toHex ++ "\""

def writeAddress {s : Space} (a : Address s) : String := writeFelt a.felt

def writeU128 (a : U128) : String := a.toDecimal

/-- An object with both limbs, the high one first. -/
def writeU256 (a : U256) : String :=
  "\x7b\"high\":" ++ writeU128 a.high ++ ",\"low\":" ++ writeU128 a.low ++ "\x7d"

/-- A list of items. -/
def writeSequence {α : Type} (item : α → String) (s : Sequence α) : String :=
  "[" ++ String.intercalate "," (s.toList.map item) ++ "]"

end FieldWords.Json
