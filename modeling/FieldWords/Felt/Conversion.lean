import FieldWords.Felt.Reading
import FieldWords.U256.Encoding

/-!
# Field elements and integers

Every 128-bit integer is a field element, and every field element a 256-bit integer. A field
element is a 128-bit integer only below `2 ^ 128`, where elements compare as the integers they
stand for.
-/

-- Powers of numbers are those of `Nat` itself.
attribute [local instance (5000)] instPowNat

namespace FieldWords.Felt

/-- Below this many bits an element compares as the integer it stands for. -/
def comparisonBits : Nat := 128

/-- The element of a 128-bit integer. -/
def ofU128 (a : U128) : Felt :=
  ⟨a.toNat, Nat.lt_trans a.toNat_lt (by decide)⟩

@[simp] theorem val_ofU128 (a : U128) : (ofU128 a).val = a.toNat := rfl

/-- The words of an element. -/
def toWords (a : Felt) : U256.Words where
  w0 := BitVec.ofNat 64 a.val
  w1 := BitVec.ofNat 64 (a.val / 2 ^ (64 : Nat))
  w2 := BitVec.ofNat 64 (a.val / 2 ^ (128 : Nat))
  w3 := BitVec.ofNat 64 (a.val / 2 ^ (192 : Nat))

/-- Whether the words of an element have at most 128 bits. -/
def isSmall (a : Felt) : Bool := a.toWords.bitLength ≤ comparisonBits

/-- The 128-bit machine word of a small element. -/
def toNative (a : Felt) : Except FeltError (BitVec 128) :=
  if a.isSmall then .ok a.toWords.low128 else .error (.doesNotFit 128)

/-- The 128-bit integer of a small element. -/
def toU128 (a : Felt) : Except FeltError U128 := a.toNative.map U128.mk

/-- The 256-bit integer of an element. -/
def toU256 (a : Felt) : U256 := U256.ofWords a.toWords

end FieldWords.Felt
