import Mathlib.Data.Nat.Bitwise
import FieldWords.Proofs.U256.Arithmetic

/-!
# Bits of limbs and of whole integers

No bit of one limb meets a bit of the other, so operations on bits may be done limb by limb
(`bitwise_mul_two_pow_add`), and they have the bits of the whole numbers (`toNat_and`, `toNat_or`,
`toNat_xor`). What two numbers have in common is what their sum counts twice
(`and_add_or_and_xor_add_and`). So checked sums and differences of such results, which work with
carries instead, come to exact results of their own.
-/

namespace FieldWords

/-! ### Bits of numbers -/

/-- Above and below a power of two, bits are taken apart from each other. -/
theorem bitwise_mul_two_pow_add {f : Bool → Bool → Bool} (hf : f false false = false)
    {width low low' : ℕ} (hlow : low < 2 ^ width) (hlow' : low' < 2 ^ width) (high high' : ℕ) :
    Nat.bitwise f (high * 2 ^ width + low) (high' * 2 ^ width + low') =
      Nat.bitwise f high high' * 2 ^ width + Nat.bitwise f low low' := by
  have hboth : Nat.bitwise f low low' < 2 ^ width := Nat.bitwise_lt_two_pow hlow hlow'
  apply Nat.eq_of_testBit_eq
  intro i
  rw [Nat.testBit_bitwise hf, Nat.mul_comm, Nat.mul_comm high', Nat.mul_comm (Nat.bitwise f _ _),
    Nat.testBit_two_pow_mul_add _ hlow, Nat.testBit_two_pow_mul_add _ hlow',
    Nat.testBit_two_pow_mul_add _ hboth, Nat.testBit_bitwise hf, Nat.testBit_bitwise hf]
  split
  · rfl
  · rfl

/-- A bit of both numbers counts twice in their sum, and a bit of one of them once. -/
theorem and_add_or_and_xor_add_and (m n : ℕ) :
    (m &&& n) + (m ||| n) = m + n ∧ (m ^^^ n) + (m &&& n) = m ||| n := by
  induction m using Nat.binaryRec generalizing n with
  | zero => simp
  | bit b m ih =>
    induction n using Nat.bitCasesOn with
    | bit c n =>
      have hlast : (b && c).toNat + (b || c).toNat = b.toNat + c.toNat ∧
          (b != c).toNat + (b && c).toNat = (b || c).toNat := by
        cases b <;> cases c <;> decide
      have hrest := ih n
      rw [Nat.land_bit, Nat.lor_bit, Nat.xor_bit]
      simp only [Nat.bit_val]
      omega

/-! ### Bits of integers -/

namespace U128

theorem toNat_and (a b : U128) : (a.and b).toNat = a.toNat &&& b.toNat := BitVec.toNat_and ..

theorem toNat_or (a b : U128) : (a.or b).toNat = a.toNat ||| b.toNat := BitVec.toNat_or ..

theorem toNat_xor (a b : U128) : (a.xor b).toNat = a.toNat ^^^ b.toNat := BitVec.toNat_xor ..

end U128

namespace U256

/-- An operation on the bits of each limb is the operation on the bits of the number. -/
theorem toNat_limbwise {op : U128 → U128 → U128} {f : Bool → Bool → Bool}
    (hf : f false false = false)
    (hop : ∀ a b, (op a b).toNat = Nat.bitwise f a.toNat b.toNat) (a b : U256) :
    (mk (op a.high b.high) (op a.low b.low)).toNat = Nat.bitwise f a.toNat b.toNat := by
  rw [toNat_mk, hop, hop, toNat, toNat]
  exact (bitwise_mul_two_pow_add hf a.low.toNat_lt b.low.toNat_lt _ _).symm

theorem toNat_and (a b : U256) : (a.and b).toNat = a.toNat &&& b.toNat :=
  toNat_limbwise rfl U128.toNat_and a b

theorem toNat_or (a b : U256) : (a.or b).toNat = a.toNat ||| b.toNat :=
  toNat_limbwise rfl U128.toNat_or a b

theorem toNat_xor (a b : U256) : (a.xor b).toNat = a.toNat ^^^ b.toNat :=
  toNat_limbwise rfl U128.toNat_xor a b

theorem checkedSub_or_and (a b : U256) : (a.or b).checkedSub (a.and b) = .ok (a.xor b) := by
  rw [checkedSub_eq_ok_iff, toNat_xor, toNat_and, toNat_or]
  exact (and_add_or_and_xor_add_and _ _).2

theorem checkedAdd_and_or (a b : U256) : (a.and b).checkedAdd (a.or b) = a.checkedAdd b := by
  rw [checkedAdd_eq, checkedAdd_eq a b, toNat_and, toNat_or, (and_add_or_and_xor_add_and _ _).1]

/-- **Bits of limbs are bits of the whole integer.** What the operations on bits make of two
integers has the bits of the whole numbers, on both sides of `2 ^ 128`. Taking the common bits off
all bits never fails and leaves the bits of one integer only; common bits and all bits have the
checked sum of the integers, or its fault. -/
theorem bits_of_whole_integers (a b : U256) :
    (a.and b).toNat = a.toNat &&& b.toNat ∧
    (a.or b).toNat = a.toNat ||| b.toNat ∧
    (a.xor b).toNat = a.toNat ^^^ b.toNat ∧
    (a.or b).checkedSub (a.and b) = .ok (a.xor b) ∧
    (a.and b).checkedAdd (a.or b) = a.checkedAdd b :=
  ⟨toNat_and a b, toNat_or a b, toNat_xor a b, checkedSub_or_and a b, checkedAdd_and_or a b⟩

end U256

end FieldWords
