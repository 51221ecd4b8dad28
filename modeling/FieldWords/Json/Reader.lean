import FieldWords.Address
import FieldWords.Json.Token
import FieldWords.Sequence

/-!
# Reading JSON

A reader takes a value from the front of a list of tokens. A string that the value's type refuses is
reported with that type's error as soon as it is read; whatever else goes wrong is only malformed.
An object may have fields that nobody asked for: their values are skipped.
-/

-- Powers of numbers are those of `Nat` itself.
attribute [local instance (5000)] instPowNat

namespace FieldWords.Json

/-- Why a text is no value of a type. -/
inductive ReadError where
  | malformed
  | felt (cause : FeltError)
  | address (space : Space) (cause : AddressError)
  deriving DecidableEq

/-- The message of a refused string; there is none for other errors. -/
def ReadError.message? : ReadError → Option String
  | .malformed => none
  | .felt cause => some cause.message
  | .address space cause => some (cause.message space)

/-- A value from the front of a list of tokens, and the tokens after it. -/
abbrev Reader (α : Type) := List Token → Except ReadError (α × List Token)

/-! ### Skipping -/

/-- An open list or object. -/
inductive Frame where
  | list
  | object
  deriving DecidableEq

/-- What a skipped value goes on with. -/
inductive Expected where
  | value
  | firstItem
  | firstKey
  | key
  | colon
  | separator
  deriving DecidableEq

/-- What is expected after a complete value inside open frames; nothing outside all of them. -/
def afterValue (stack : List Frame) : Option (Expected × List Frame) :=
  if stack.isEmpty then none else some (.separator, stack)

/-- A value begins: either it is complete, or it opens a frame. -/
def beginValue (stack : List Frame) : Token → Option (Option (Expected × List Frame))
  | .openBracket => some (some (.firstItem, .list :: stack))
  | .openBrace => some (some (.firstKey, .object :: stack))
  | .string _ | .natural _ | .number | .word => some (afterValue stack)
  | _ => none

/-- One token of a skipped value. No result: the token is out of place. An empty result: the value
is complete. -/
def skipToken : Expected → List Frame → Token → Option (Option (Expected × List Frame))
  | .firstItem, .list :: stack, .closeBracket => some (afterValue stack)
  | .firstKey, .object :: stack, .closeBrace => some (afterValue stack)
  | .firstKey, stack, .string _ => some (some (.colon, stack))
  | .key, stack, .string _ => some (some (.colon, stack))
  | .colon, stack, .colon => some (some (.value, stack))
  | .separator, .list :: stack, .comma => some (some (.value, .list :: stack))
  | .separator, .object :: stack, .comma => some (some (.key, .object :: stack))
  | .separator, .list :: stack, .closeBracket => some (afterValue stack)
  | .separator, .object :: stack, .closeBrace => some (afterValue stack)
  | .value, stack, t => beginValue stack t
  | .firstItem, stack, t => beginValue stack t
  | _, _, _ => none

/-- The tokens after a value that goes on as expected. -/
def skip (expected : Expected) (stack : List Frame) : List Token → Option (List Token)
  | [] => none
  | t :: ts =>
    match skipToken expected stack t with
    | none => none
    | some none => some ts
    | some (some (expected, stack)) => skip expected stack ts

/-! ### Values -/

/-- A string with a text. -/
def readText : Reader String
  | .string (some s) :: ts => .ok (s, ts)
  | _ => .error .malformed

/-- A field element is a string with its hexadecimal numeral. -/
def readFelt : Reader Felt := fun ts => do
  let (s, ts) ← readText ts
  match Felt.ofHex s with
  | .ok a => return (a, ts)
  | .error cause => .error (.felt cause)

/-- An address is a field element in range. -/
def readAddress (s : Space) : Reader (Address s) := fun ts => do
  let (a, ts) ← readFelt ts
  match Address.ofFelt s a with
  | .ok b => return (b, ts)
  | .error cause => .error (.address s cause)

/-- A 128-bit integer is a plain number below `2 ^ 128`. -/
def readU128 : Reader U128
  | .natural n :: ts => if n < 2 ^ (128 : Nat) then .ok (U128.ofNat n, ts) else .error .malformed
  | _ => .error .malformed

/-- The limbs of a 256-bit integer that have been read. -/
structure Limbs where
  high : Option U128
  low : Option U128

/-- One field of the object: a limb that is not there yet, or anything under another name. -/
def readField (limbs : Limbs) (name : String) (ts : List Token) :
    Except ReadError (Limbs × List Token) :=
  if name = "high" then
    if limbs.high.isSome then .error .malformed
    else (readU128 ts).map fun r => ({ limbs with high := some r.1 }, r.2)
  else if name = "low" then
    if limbs.low.isSome then .error .malformed
    else (readU128 ts).map fun r => ({ limbs with low := some r.1 }, r.2)
  else
    match skip .value [] ts with
    | some rest => .ok (limbs, rest)
    | none => .error .malformed

/-- The fields of the object up to its end. -/
def readFields (limbs : Limbs) : List Token → Except ReadError (Limbs × List Token)
  | .string (some name) :: .colon :: ts =>
    match readField limbs name ts with
    | .ok (limbs, .comma :: rest) =>
      if rest.length < ts.length then readFields limbs rest else .error .malformed
    | .ok (limbs, .closeBrace :: rest) => .ok (limbs, rest)
    | .ok _ => .error .malformed
    | .error e => .error e
  | _ => .error .malformed
termination_by ts => ts.length

/-- A 256-bit integer is an object with both limbs, or a list of the high and the low limb. -/
def readU256 : Reader U256
  | .openBracket :: ts => do
    match ← readU128 ts with
    | (high, .comma :: ts) =>
      match ← readU128 ts with
      | (low, .closeBracket :: ts) => return (⟨high, low⟩, ts)
      | _ => .error .malformed
    | _ => .error .malformed
  | .openBrace :: ts => do
    match ← readFields ⟨none, none⟩ ts with
    | (⟨some high, some low⟩, ts) => return (⟨high, low⟩, ts)
    | _ => .error .malformed
  | _ => .error .malformed

/-- The items of a list up to its end, of which there is at least one. -/
def readItems {α : Type} (item : Reader α) (ts : List Token) :
    Except ReadError (List α × List Token) :=
  match item ts with
  | .ok (a, .comma :: rest) =>
    if rest.length < ts.length then
      (readItems item rest).map fun r => (a :: r.1, r.2)
    else .error .malformed
  | .ok (a, .closeBracket :: rest) => .ok ([a], rest)
  | .ok _ => .error .malformed
  | .error e => .error e
termination_by ts.length

/-- A sequence is a list of its items in order. -/
def readSequence {α : Type} (item : Reader α) : Reader (Sequence α)
  | .openBracket :: .closeBracket :: ts => .ok (.empty, ts)
  | .openBracket :: ts => (readItems item ts).map fun r => (.ofList r.1, r.2)
  | _ => .error .malformed

/-- Read a whole text. -/
def Reader.read {α : Type} (reader : Reader α) (text : String) : Except ReadError α :=
  match reader (lex text.toList) with
  | .ok (a, []) => .ok a
  | .ok _ => .error .malformed
  | .error e => .error e

end FieldWords.Json
