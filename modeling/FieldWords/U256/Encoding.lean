import FieldWords.Text.Hex
import FieldWords.U256.Basic

/-!
# Encodings of 256-bit integers

An integer is also 32 bytes, most significant first, or four words of 64 bits, least significant
first, or a hexadecimal numeral of 64 digits. Reading a numeral takes any number of leading zeros
and at most 32 significant bytes.
-/

-- Powers of numbers are those of `Nat` itself.
attribute [local instance (5000)] instPowNat

namespace FieldWords.U256

/-! ### Bytes -/

/-- The 32 bytes of an integer: 16 for each limb. -/
def toBytes (a : U256) : List UInt8 :=
  Bytes.ofNat 16 a.high.toNat ++ Bytes.ofNat 16 a.low.toNat

@[simp] theorem length_toBytes (a : U256) : a.toBytes.length = 32 := by
  simp [toBytes]

/-- The integer of 32 bytes: the first 16 are the high limb. -/
def ofBytes (bs : List UInt8) : U256 :=
  ⟨U128.ofNat (Bytes.value (bs.take 16)), U128.ofNat (Bytes.value (bs.drop 16))⟩

/-- The integer of at most 32 bytes, which stand at the end of 32. -/
def ofShortBytes (bs : List UInt8) : U256 :=
  ofBytes (List.replicate (32 - bs.length) 0 ++ bs)

/-! ### Words -/

/-- Four words of 64 bits, least significant first. -/
structure Words where
  w0 : BitVec 64
  w1 : BitVec 64
  w2 : BitVec 64
  w3 : BitVec 64
  deriving DecidableEq

/-- The integer that words write in base `2 ^ 64`. -/
def Words.toNat (w : Words) : Nat :=
  w.w0.toNat + w.w1.toNat * 2 ^ (64 : Nat) + w.w2.toNat * 2 ^ (128 : Nat) +
    w.w3.toNat * 2 ^ (192 : Nat)

def Words.toList (w : Words) : List (BitVec 64) := [w.w0, w.w1, w.w2, w.w3]

/-- The words of the last 256 bits of a number. -/
def Words.ofNat (n : Nat) : Words where
  w0 := BitVec.ofNat 64 n
  w1 := BitVec.ofNat 64 (n / 2 ^ (64 : Nat))
  w2 := BitVec.ofNat 64 (n / 2 ^ (128 : Nat))
  w3 := BitVec.ofNat 64 (n / 2 ^ (192 : Nat))

/-- The bits of a number without leading zeros: the highest word that is not zero counts without
them, and every word below it in full. -/
def Words.bitLength (w : Words) : Nat :=
  if w.w3 ≠ 0#64 then 256 - w.w3.clz.toNat
  else if w.w2 ≠ 0#64 then 192 - w.w2.clz.toNat
  else if w.w1 ≠ 0#64 then 128 - w.w1.clz.toNat
  else 64 - w.w0.clz.toNat

/-- The two low words side by side. -/
def Words.low128 (w : Words) : BitVec 128 := (w.w1.setWidth 128 <<< 64) + w.w0.setWidth 128

/-- The words of the floor of the quotient. -/
def Words.div (v w : Words) : Words := ofNat (v.toNat / w.toNat)

/-- The words of the remainder. -/
def Words.mod (v w : Words) : Words := ofNat (v.toNat % w.toNat)

/-- The words of an integer. -/
def toWords (a : U256) : Words where
  w0 := a.low.bits.setWidth 64
  w1 := (a.low.bits >>> 64).setWidth 64
  w2 := a.high.bits.setWidth 64
  w3 := (a.high.bits >>> 64).setWidth 64

/-- The integer of four words: two make a limb. -/
def ofWords (w : Words) : U256 :=
  ⟨⟨(w.w3.setWidth 128 <<< 64) ||| w.w2.setWidth 128⟩,
    ⟨(w.w1.setWidth 128 <<< 64) ||| w.w0.setWidth 128⟩⟩

/-! ### Hexadecimal -/

/-- Why a text is no 256-bit integer. -/
inductive Error where
  | invalidHex (cause : Hex.Error)
  | invalidLength (length : Nat)
  deriving DecidableEq, Repr

def Error.message : Error → String
  | .invalidHex cause => "invalid hex string: " ++ cause.message
  | .invalidLength length =>
    "invalid u256 length: expected at most 32 bytes, got " ++ Decimal.write length

/-- Read a numeral of at most 32 significant bytes. -/
def ofHex (s : String) : Except Error U256 :=
  match Hex.significant s with
  | .error cause => .error (.invalidHex cause)
  | .ok bs => if 32 < bs.length then .error (.invalidLength bs.length) else .ok (ofShortBytes bs)

/-- The numeral of 64 digits. -/
def toHex (a : U256) : String := Hex.wide a.toBytes

end FieldWords.U256
