import FieldWords.Felt.Basic

/-!
# Reading field elements

Elements are read from bytes, from hexadecimal numerals and from short strings. Thirty-two bytes
may be reduced modulo `P`; the other readers refuse what is not the representative of an element.
-/

-- Powers of numbers are those of `Nat` itself.
attribute [local instance (5000)] instPowNat

namespace FieldWords

/-- Why something is no field element, or a field element no smaller integer. -/
inductive FeltError where
  | invalidHex (cause : Hex.Error)
  | invalidLength (length : Nat)
  | notCanonical
  | doesNotFit (bits : Nat)
  | shortStringTooLong (length : Nat)
  | nonAscii
  deriving DecidableEq, Repr

def FeltError.message : FeltError → String
  | .invalidHex cause => "invalid hex string: " ++ cause.message
  | .invalidLength length =>
    "invalid felt length: expected at most 32 bytes, got " ++ Decimal.write length
  | .notCanonical => "value is not below the field modulus"
  | .doesNotFit bits => "felt does not fit in " ++ Decimal.write bits ++ " bits"
  | .shortStringTooLong length =>
    "short string too long: " ++ Decimal.write length ++ " bytes (max 31)"
  | .nonAscii => "short string must be ASCII"

namespace Felt

/-! ### Bytes -/

/-- The element of bytes, reduced modulo `P`. -/
def ofBytes (bs : List UInt8) : Felt := ofNat (Bytes.value bs)

/-- The element whose representative at most 32 bytes write. -/
def ofSlice (bs : List UInt8) : Except FeltError Felt :=
  if 32 < bs.length then .error (.invalidLength bs.length)
  else if h : Bytes.value bs < prime then .ok ⟨Bytes.value bs, h⟩
  else .error .notCanonical

/-- Read a hexadecimal numeral: its significant bytes write a representative. -/
def ofHex (s : String) : Except FeltError Felt :=
  match Hex.significant s with
  | .error cause => .error (.invalidHex cause)
  | .ok bs => ofSlice bs

/-! ### Short strings -/

/-- The most bytes of text that one element holds. -/
def shortStringLength : Nat := 31

/-- Any 31 bytes write less than `P`. -/
theorem value_lt_prime {bs : List UInt8} (h : bs.length ≤ shortStringLength) :
    Bytes.value bs < prime :=
  calc Bytes.value bs < 256 ^ bs.length := Bytes.value_lt bs
    _ ≤ 256 ^ 31 := Nat.pow_le_pow_right (by decide) h
    _ < prime := by decide

/-- The element of at most 31 bytes, of which nothing is reduced. -/
def ofShortBytes (bs : List UInt8) : Felt := ofNat (Bytes.value bs)

theorem val_ofShortBytes {bs : List UInt8} (h : bs.length ≤ shortStringLength) :
    (ofShortBytes bs).val = Bytes.value bs :=
  val_ofNat_of_lt (value_lt_prime h)

/-- The element of an ASCII text of at most 31 bytes. -/
def ofShortString (s : String) : Except FeltError Felt :=
  let bs := Utf8.encode s
  if !bs.all (· < 0x80) then .error .nonAscii
  else if shortStringLength < bs.length then .error (.shortStringTooLong bs.length)
  else .ok (ofShortBytes bs)

/-- The bytes that show as a character of their own. -/
def isPrintable (b : UInt8) : Bool := 0x20 ≤ b && b < 0x7F

/-- The text of an element all of whose significant bytes are printable. -/
def toShortString (a : Felt) : Option String :=
  let bs := Bytes.trim a.toBytes
  if bs.all isPrintable then some (String.ofList (bs.map fun b => Char.ofNat b.toNat)) else none

end Felt

end FieldWords
