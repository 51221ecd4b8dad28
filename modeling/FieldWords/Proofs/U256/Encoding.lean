import Mathlib.Algebra.Order.Ring.Nat
import FieldWords.Felt.Conversion
import FieldWords.Proofs.Bytes

/-!
# Encodings and the integer

Words, bytes and limbs are different divisions of one integer. Four words have the integer that they
write in base `2 ^ 64` (`toNat_ofWords`, `toNat_toWords`), 32 bytes the one that they write in base
256 (`toNat_ofBytes`, `toBytes_eq`), and fewer bytes are at the low end (`toNat_ofShortBytes`). So a
field element keeps its representative when it becomes an integer (`Felt.toNat_toU256`).
-/

namespace FieldWords.U256

/-- Two words side by side. -/
theorem toNat_shiftLeft_or (hi lo : BitVec 64) :
    (hi.setWidth 128 <<< 64 ||| lo.setWidth 128).toNat = hi.toNat * 2 ^ 64 + lo.toNat := by
  have hhi : hi.toNat < 2 ^ 64 := hi.isLt
  have hlo : lo.toNat < 2 ^ 64 := lo.isLt
  rw [BitVec.toNat_or, BitVec.toNat_shiftLeft, BitVec.toNat_setWidth_of_le (by decide),
    BitVec.toNat_setWidth_of_le (by decide), Nat.shiftLeft_eq, Nat.mod_eq_of_lt (by omega),
    ← Nat.shiftLeft_eq, ← Nat.shiftLeft_add_eq_or_of_lt hlo]

/-- Words laid side by side make a number in base `2 ^ 64`. -/
theorem toNat_ofWords (w : Words) : (ofWords w).toNat = w.toNat := by
  simp only [ofWords, toNat, Words.toNat, U128.toNat, toNat_shiftLeft_or]
  omega

theorem Words.toNat_ofNat (n : ℕ) : (Words.ofNat n).toNat = n % 2 ^ 256 := by
  simp only [Words.ofNat, Words.toNat, BitVec.toNat_ofNat]
  omega

/-- The words of an integer write its number. -/
theorem toNat_toWords (a : U256) : a.toWords.toNat = a.toNat := by
  have hhigh : a.high.bits.toNat < 2 ^ 128 := a.high.bits.isLt
  have hlow : a.low.bits.toNat < 2 ^ 128 := a.low.bits.isLt
  simp only [toWords, Words.toNat, toNat, U128.toNat, BitVec.toNat_setWidth,
    BitVec.toNat_ushiftRight, Nat.shiftRight_eq_div_pow]
  omega

/-- The bytes of an integer are those of its number, without a seam between the limbs. -/
theorem toBytes_eq (a : U256) : a.toBytes = Bytes.ofNat 32 a.toNat := by
  have hhigh : a.high.toNat < 256 ^ 16 := a.high.toNat_lt.trans_eq (by decide)
  have hlow : a.low.toNat < 256 ^ 16 := a.low.toNat_lt.trans_eq (by decide)
  have hnat : a.toNat < 256 ^ 32 := a.toNat_lt.trans_eq (by decide)
  apply Bytes.value_injective
  · rw [length_toBytes, Bytes.length_ofNat]
  · rw [toBytes, Bytes.value_append, Bytes.length_ofNat, Bytes.value_ofNat_of_lt hhigh,
      Bytes.value_ofNat_of_lt hlow, Bytes.value_ofNat_of_lt hnat]
    rfl

@[simp] theorem value_toBytes (a : U256) : Bytes.value a.toBytes = a.toNat := by
  rw [toBytes_eq, Bytes.value_ofNat_of_lt (a.toNat_lt.trans_eq (by decide))]

theorem toNat_ofBytes {bs : List UInt8} (h : bs.length = 32) :
    (ofBytes bs).toNat = Bytes.value bs := by
  have hhigh : Bytes.value (bs.take 16) < 256 ^ 16 :=
    Bytes.value_lt_of_length_le (by rw [List.length_take, h]; decide)
  have hlow : Bytes.value (bs.drop 16) < 256 ^ 16 :=
    Bytes.value_lt_of_length_le (by rw [List.length_drop, h])
  have hsplit : Bytes.value bs =
      Bytes.value (bs.take 16) * 256 ^ (bs.drop 16).length + Bytes.value (bs.drop 16) := by
    rw [← Bytes.value_append, List.take_append_drop]
  rw [hsplit, List.length_drop, h, ofBytes, toNat, U128.toNat_ofNat, U128.toNat_ofNat,
    Nat.mod_eq_of_lt (hhigh.trans_eq (by decide)), Nat.mod_eq_of_lt (hlow.trans_eq (by decide))]
  rfl

/-- At most 32 bytes write their number, wherever the seam between the limbs falls. -/
theorem toNat_ofShortBytes {bs : List UInt8} (h : bs.length ≤ 32) :
    (ofShortBytes bs).toNat = Bytes.value bs := by
  have hlen : (List.replicate (32 - bs.length) (0 : UInt8) ++ bs).length = 32 := by
    rw [List.length_append, List.length_replicate]
    omega
  rw [ofShortBytes, toNat_ofBytes hlen, ← Bytes.value_trim, Bytes.trim_replicate_zero_append,
    Bytes.value_trim]

end FieldWords.U256

namespace FieldWords.Felt

theorem toNat_toU256 (a : Felt) : a.toU256.toNat = a.val := by
  have ha : a.val < 2 ^ 256 := a.isLt.trans (by decide)
  rw [toU256, U256.toNat_ofWords]
  simp only [toWords, U256.Words.toNat, BitVec.toNat_ofNat]
  omega

theorem toBytes_toU256 (a : Felt) : a.toU256.toBytes = a.toBytes := by
  rw [U256.toBytes_eq, toNat_toU256, toBytes]

end FieldWords.Felt
