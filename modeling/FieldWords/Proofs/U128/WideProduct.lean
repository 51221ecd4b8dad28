import Mathlib.Algebra.Order.Ring.Nat
import Mathlib.Tactic.Ring
import FieldWords.U128.WideProduct

/-!
# Wide products are exact

The product of two halves fits a word with room for two more halves (`mul_le_of_lt`), so the four
partial products are exact (`columns_exact`), and so is every sum that the columns add up
(`Columns.toNat_middle`, `Columns.toNat_low`, `Columns.toNat_high`). Put together the two words are
the product (`toNat_wideMul`).
-/

namespace FieldWords.WideProduct

/-! ### Halves -/

theorem toNat_lowHalf (a : Word) : (lowHalf a).toNat = a.toNat % 2 ^ 64 := by
  rw [lowHalf, BitVec.toNat_and]
  exact Nat.and_two_pow_sub_one_eq_mod a.toNat 64

theorem toNat_highHalf (a : Word) : (highHalf a).toNat = a.toNat / 2 ^ 64 := by
  rw [highHalf, BitVec.toNat_ushiftRight, Nat.shiftRight_eq_div_pow]

theorem toNat_lowHalf_lt (a : Word) : (lowHalf a).toNat < 2 ^ 64 := by
  rw [toNat_lowHalf]
  exact Nat.mod_lt _ (by decide)

theorem toNat_highHalf_lt (a : Word) : (highHalf a).toNat < 2 ^ 64 := by
  have ha : a.toNat < 2 ^ 128 := a.isLt
  rw [toNat_highHalf]
  omega

/-- The greatest product of two halves. -/
theorem mul_le_of_lt {x y : ℕ} (hx : x < 2 ^ 64) (hy : y < 2 ^ 64) :
    x * y ≤ (2 ^ 64 - 1) * (2 ^ 64 - 1) :=
  Nat.mul_le_mul (Nat.le_sub_one_of_lt hx) (Nat.le_sub_one_of_lt hy)

/-- The product of words that are halves does not wrap. -/
theorem toNat_mul_of_lt {v w : Word} (hv : v.toNat < 2 ^ 64) (hw : w.toNat < 2 ^ 64) :
    (v * w).toNat = v.toNat * w.toNat := by
  have hle := mul_le_of_lt hv hw
  rw [BitVec.toNat_mul, Nat.mod_eq_of_lt (by omega)]

/-! ### Columns -/

/-- The partial products are those of the halves, and none wraps. -/
theorem columns_exact (a b : Word) :
    (columns a b).lowLow.toNat = (a.toNat % 2 ^ 64) * (b.toNat % 2 ^ 64) ∧
    (columns a b).highLow.toNat = (a.toNat / 2 ^ 64) * (b.toNat % 2 ^ 64) ∧
    (columns a b).lowHigh.toNat = (a.toNat % 2 ^ 64) * (b.toNat / 2 ^ 64) ∧
    (columns a b).highHigh.toNat = (a.toNat / 2 ^ 64) * (b.toNat / 2 ^ 64) := by
  have hal := toNat_lowHalf_lt a
  have hbl := toNat_lowHalf_lt b
  have hah := toNat_highHalf_lt a
  have hbh := toNat_highHalf_lt b
  simp only [columns_eq, ← toNat_lowHalf, ← toNat_highHalf]
  exact ⟨toNat_mul_of_lt hal hbl, toNat_mul_of_lt hah hbl, toNat_mul_of_lt hal hbh,
    toNat_mul_of_lt hah hbh⟩

namespace Columns

/-- Columns whose entries are products of two halves. -/
structure IsPartial (c : Columns) : Prop where
  highLow_le : c.highLow.toNat ≤ (2 ^ 64 - 1) * (2 ^ 64 - 1)
  lowHigh_le : c.lowHigh.toNat ≤ (2 ^ 64 - 1) * (2 ^ 64 - 1)
  highHigh_le : c.highHigh.toNat ≤ (2 ^ 64 - 1) * (2 ^ 64 - 1)

/-- Three halves and the carries between them fit in a word. -/
theorem toNat_middle (c : Columns) :
    c.middle.toNat =
      c.lowLow.toNat / 2 ^ 64 + c.highLow.toNat % 2 ^ 64 + c.lowHigh.toNat % 2 ^ 64 := by
  have hll := toNat_highHalf_lt c.lowLow
  have hhl := toNat_lowHalf_lt c.highLow
  have hlh := toNat_lowHalf_lt c.lowHigh
  rw [middle_eq, BitVec.toNat_add, BitVec.toNat_add, ← toNat_highHalf, ← toNat_lowHalf,
    ← toNat_lowHalf]
  omega

/-- The middle column leaves its lower half to the low word. -/
theorem toNat_low (c : Columns) :
    c.low.toNat = c.middle.toNat % 2 ^ 64 * 2 ^ 64 + c.lowLow.toNat % 2 ^ 64 := by
  have hll := toNat_lowHalf_lt c.lowLow
  have hshift : (c.middle <<< 64).toNat = c.middle.toNat % 2 ^ 64 * 2 ^ 64 := by
    rw [BitVec.toNat_shiftLeft, Nat.shiftLeft_eq]
    omega
  -- the lower half stands below the shifted column, so no bit is set in both
  rw [low_eq, BitVec.toNat_or, hshift, ← Nat.shiftLeft_eq, ← Nat.shiftLeft_add_eq_or_of_lt hll,
    Nat.shiftLeft_eq, toNat_lowHalf]

/-- The high word takes the rest, and does not wrap. -/
theorem toNat_high {c : Columns} (h : c.IsPartial) :
    c.high.toNat = c.highHigh.toNat + c.highLow.toNat / 2 ^ 64 + c.lowHigh.toNat / 2 ^ 64 +
      c.middle.toNat / 2 ^ 64 := by
  obtain ⟨hhl, hlh, hhh⟩ := h
  have hmiddle := c.toNat_middle
  have hll : c.lowLow.toNat < 2 ^ 128 := c.lowLow.isLt
  simp only [high_eq, BitVec.toNat_add, toNat_highHalf]
  omega

end Columns

theorem isPartial_columns (a b : Word) : (columns a b).IsPartial where
  highLow_le := by
    rw [columns_eq, toNat_mul_of_lt (toNat_highHalf_lt a) (toNat_lowHalf_lt b)]
    exact mul_le_of_lt (toNat_highHalf_lt a) (toNat_lowHalf_lt b)
  lowHigh_le := by
    rw [columns_eq, toNat_mul_of_lt (toNat_lowHalf_lt a) (toNat_highHalf_lt b)]
    exact mul_le_of_lt (toNat_lowHalf_lt a) (toNat_highHalf_lt b)
  highHigh_le := by
    rw [columns_eq, toNat_mul_of_lt (toNat_highHalf_lt a) (toNat_highHalf_lt b)]
    exact mul_le_of_lt (toNat_highHalf_lt a) (toNat_highHalf_lt b)

/-! ### The product -/

/-- The high and the low word are the product. -/
theorem toNat_wideMul (a b : Word) :
    (wideMul a b).1.toNat * 2 ^ 128 + (wideMul a b).2.toNat = a.toNat * b.toNat := by
  obtain ⟨hll, hhl, hlh, hhh⟩ := columns_exact a b
  have hsplit : a.toNat * b.toNat =
      (columns a b).highHigh.toNat * 2 ^ 128 +
        ((columns a b).highLow.toNat + (columns a b).lowHigh.toNat) * 2 ^ 64 +
        (columns a b).lowLow.toNat := by
    rw [hll, hhl, hlh, hhh]
    conv_lhs => rw [← Nat.div_add_mod a.toNat (2 ^ 64), ← Nat.div_add_mod b.toNat (2 ^ 64)]
    ring
  have hhigh := Columns.toNat_high (isPartial_columns a b)
  have hlow := (columns a b).toNat_low
  have hmiddle := (columns a b).toNat_middle
  change (columns a b).high.toNat * 2 ^ 128 + (columns a b).low.toNat = _
  rw [hsplit]
  omega

end FieldWords.WideProduct
