import FieldWords.Felt.Conversion

/-!
# Addresses

An address is a field element below the bound of its space: `2 ^ 251` for contracts, and 256 less
for storage, so that small offsets from a storage address stay inside the bound for contracts. The
definitions are the same for both spaces, but a text on its own is read only as the address of a
contract: `ofHex` and `parse` are entries for contracts, and so is the error about a numeral. A
storage address is checked from an element, or read from a JSON string, and the one error it has is
to be out of range.
-/

-- Powers of numbers are those of `Nat` itself.
attribute [local instance (5000)] instPowNat

namespace FieldWords

/-- The two address spaces. -/
inductive Space where
  | storage
  | contract
  deriving DecidableEq, Repr

namespace Space

/-- The exclusive upper bound of a space. -/
def bound : Space → Felt
  | .storage => ⟨2 ^ (251 : Nat) - 256, by decide⟩
  | .contract => ⟨2 ^ (251 : Nat), by decide⟩

/-- How diagnostics call an address. -/
def typeName : Space → String
  | .storage => "StorageAddress"
  | .contract => "ContractAddress"

/-- How messages call an address. -/
def noun : Space → String
  | .storage => "storage address"
  | .contract => "contract address"

/-- Every 128-bit integer lies below the bound. -/
theorem toNat_lt_bound (s : Space) (a : U128) : a.toNat < s.bound.val :=
  Nat.lt_of_lt_of_le a.toNat_lt (by cases s <;> decide)

end Space

/-- An address of a space. -/
structure Address (s : Space) where
  felt : Felt
  inRange : felt.val < s.bound.val
  deriving DecidableEq

abbrev StorageAddress := Address .storage

abbrev ContractAddress := Address .contract

/-- Why something is no address. Only the address of a contract is refused for its element. -/
inductive AddressError where
  | outOfRange (felt : Felt)
  | invalidFelt (cause : FeltError)
  deriving DecidableEq

/-- The message of an error about an address of a space. -/
def AddressError.message (s : Space) : AddressError → String
  | .outOfRange felt => s.noun ++ " out of range: " ++ felt.toHex
  | .invalidFelt cause => "invalid " ++ s.noun ++ ": " ++ cause.message

namespace Address

variable {s : Space}

/-- The address of an element below the bound. -/
def ofFelt (s : Space) (a : Felt) : Except AddressError (Address s) :=
  if h : a.val < s.bound.val then .ok ⟨a, h⟩ else .error (.outOfRange a)

/-- The address of a 128-bit integer. -/
def ofU128 (s : Space) (a : U128) : Address s := ⟨Felt.ofU128 a, s.toNat_lt_bound a⟩

/-- Read a hexadecimal numeral, then check the range; an entry for contracts. -/
def ofHex (s : Space) (text : String) : Except AddressError (Address s) :=
  match Felt.ofHex text with
  | .error cause => .error (.invalidFelt cause)
  | .ok a => ofFelt s a

/-- A text is read as a hexadecimal numeral; an entry for contracts. -/
def parse (s : Space) (text : String) : Except AddressError (Address s) := ofHex s text

def zero (s : Space) : Address s := ofU128 s U128.zero

instance : Inhabited (Address s) := ⟨zero s⟩

def isZero (a : Address s) : Bool := a.felt.isZero

instance : Ord (Address s) := ⟨fun a b => compare a.felt b.felt⟩

/-- The hexadecimal numeral of the element. -/
def toHex (a : Address s) : String := a.felt.toHex

instance : Inspect (Address s) := ⟨fun a => .text (s.typeName ++ "(" ++ a.toHex ++ ")")⟩

end Address

end FieldWords
