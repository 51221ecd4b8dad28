import FieldWords.Proofs.U128.Native

/-!
# Columns of a wide product

In each column of a wide product everything fits: the partial products, the middle column with three
halves in it, and the high column with what the middle one carries (`columns_areExact`). The low
word is put together by a bitwise or, which is a sum since no bit is set on both sides
(`shiftLeft_middle_and`). What the shift of the middle column drops from the low word is what the
high word takes over (`toNat_shiftLeft_middle_add`). So the words are the product and no operation
on the way overflows (`wideMul_exact_in_every_column`).
-/

namespace FieldWords.WideProduct

namespace Columns

/-! ### The middle column -/

theorem middle_le (c : Columns) : c.middle.toNat ≤ 3 * (2 ^ 64 - 1) := by
  have hll := toNat_highHalf_lt c.lowLow
  have hhl := toNat_lowHalf_lt c.highLow
  have hlh := toNat_lowHalf_lt c.lowHigh
  rw [toNat_middle, ← toNat_highHalf, ← toNat_lowHalf, ← toNat_lowHalf]
  omega

/-- The bits that the shift drops are the upper half of the middle column. -/
theorem toNat_shiftLeft_middle_add (c : Columns) :
    (c.middle <<< 64).toNat + (highHalf c.middle).toNat * 2 ^ 128 = c.middle.toNat * 2 ^ 64 := by
  have hmiddle : c.middle.toNat < 2 ^ 128 := c.middle.isLt
  rw [BitVec.toNat_shiftLeft, Nat.shiftLeft_eq, toNat_highHalf]
  omega

/-- The shifted middle column and the lower half below it have no bit in common. -/
theorem shiftLeft_middle_and (c : Columns) : (c.middle <<< 64) &&& lowHalf c.lowLow = 0#128 := by
  ext i hi
  rw [BitVec.getElem_and, BitVec.getElem_shiftLeft, lowHalf, BitVec.getElem_and]
  by_cases hlow : i < 64
  · simp [hlow]
  · have hmask : (0xFFFFFFFFFFFFFFFF#128)[i] = false := by
      rw [BitVec.getElem_eq_testBit_toNat]
      exact Nat.testBit_lt_two_pow (Nat.lt_of_lt_of_le (by decide)
        (Nat.pow_le_pow_right (by decide) (Nat.le_of_not_lt hlow)))
    simp [hmask]

/-- The or of the two parts of the low word is their sum. -/
theorem toNat_low_eq_add (c : Columns) :
    c.low.toNat = (c.middle <<< 64).toNat + (lowHalf c.lowLow).toNat := by
  have hmiddle := c.toNat_shiftLeft_middle_add
  rw [toNat_highHalf] at hmiddle
  rw [toNat_low, toNat_lowHalf]
  omega

/-! ### All columns -/

/-- The columns of two factors. A partial product is the product of halves. The middle column holds
the sum of three halves, and the high column the sum of the rest, which fits. In the low word an or
is a sum, and what it has not of the middle column is in the high word. -/
structure AreExact (c : Columns) (a b : ℕ) : Prop where
  lowLow_eq : c.lowLow.toNat = a % 2 ^ 64 * (b % 2 ^ 64)
  highLow_eq : c.highLow.toNat = a / 2 ^ 64 * (b % 2 ^ 64)
  lowHigh_eq : c.lowHigh.toNat = a % 2 ^ 64 * (b / 2 ^ 64)
  highHigh_eq : c.highHigh.toNat = a / 2 ^ 64 * (b / 2 ^ 64)
  middle_eq : c.middle.toNat =
    c.lowLow.toNat / 2 ^ 64 + c.highLow.toNat % 2 ^ 64 + c.lowHigh.toNat % 2 ^ 64
  middle_le : c.middle.toNat ≤ 3 * (2 ^ 64 - 1)
  high_eq : c.high.toNat = c.highHigh.toNat + c.highLow.toNat / 2 ^ 64 +
    c.lowHigh.toNat / 2 ^ 64 + c.middle.toNat / 2 ^ 64
  high_lt : c.highHigh.toNat + c.highLow.toNat / 2 ^ 64 + c.lowHigh.toNat / 2 ^ 64 +
    c.middle.toNat / 2 ^ 64 < 2 ^ 128
  or_eq_add : (c.middle <<< 64) &&& lowHalf c.lowLow = 0#128 ∧
    c.low.toNat = (c.middle <<< 64).toNat + (lowHalf c.lowLow).toNat
  carried : (c.middle <<< 64).toNat + (highHalf c.middle).toNat * 2 ^ 128 =
    c.middle.toNat * 2 ^ 64

end Columns

theorem columns_areExact (a b : Word) : (columns a b).AreExact a.toNat b.toNat where
  lowLow_eq := (columns_exact a b).1
  highLow_eq := (columns_exact a b).2.1
  lowHigh_eq := (columns_exact a b).2.2.1
  highHigh_eq := (columns_exact a b).2.2.2
  middle_eq := (columns a b).toNat_middle
  middle_le := (columns a b).middle_le
  high_eq := Columns.toNat_high (isPartial_columns a b)
  high_lt := by
    rw [← Columns.toNat_high (isPartial_columns a b)]
    exact (columns a b).high.isLt
  or_eq_add := ⟨(columns a b).shiftLeft_middle_and, (columns a b).toNat_low_eq_add⟩
  carried := (columns a b).toNat_shiftLeft_middle_add

/-- **A wide product is exact in every column.** Its two words, each of 128 bits, are the product of
the factors; they are made of columns in which everything fits; and on native operations that have
no result where they overflow, the same steps come to the same words. -/
theorem wideMul_exact_in_every_column (a b : Word) :
    (wideMul a b).1.toNat * 2 ^ 128 + (wideMul a b).2.toNat = a.toNat * b.toNat ∧
    (wideMul a b).1.toNat < 2 ^ 128 ∧ (wideMul a b).2.toNat < 2 ^ 128 ∧
    wideMul a b = ((columns a b).high, (columns a b).low) ∧
    (columns a b).AreExact a.toNat b.toNat ∧
    NeverOverflows (fun _ _ native => wideMulOn native a b) (wideMul a b) :=
  ⟨toNat_wideMul a b, (wideMul a b).1.isLt, (wideMul a b).2.isLt, rfl, columns_areExact a b,
    wideMul_neverOverflows a b⟩

/-- The greatest factors. -/
example : wideMul (BitVec.allOnes 128) (BitVec.allOnes 128) = (BitVec.allOnes 128 - 1, 1) := by
  decide

end FieldWords.WideProduct
