import FieldWords.Proofs.U256.Arithmetic

/-!
# Division against multiplication

Quotients and remainders are taken of words, and products of limbs, but they are operations on the
same integers. A quotient and a remainder lead back to the dividend (`exists_quotient_remainder`);
an integer is at most a quotient exactly if its product with the divisor is at most the dividend
(`isLE_checkedDiv_iff`); and a product leaves 256 bits exactly if a factor exceeds the quotient of
the greatest integer by the other (`exists_checkedMul_error_iff`).
-/

namespace FieldWords.U256

theorem isZero_iff_eq_zero {b : U256} : b.isZero = true ↔ b = zero := by
  rw [isZero_iff, toNat_eq_zero_iff]

theorem toNat_pos {b : U256} (hb : b ≠ zero) : 0 < b.toNat :=
  Nat.pos_of_ne_zero (mt toNat_eq_zero_iff.mp hb)

theorem toNat_max : max.toNat = 2 ^ 256 - 1 := by decide

/-! ### Results -/

theorem checkedDiv_of_ne_zero (a : U256) {b : U256} (hb : b ≠ zero) :
    a.checkedDiv b = .ok (ofNat (a.toNat / b.toNat)) := by
  rw [checkedDiv_eq, if_neg (mt isZero_iff_eq_zero.mp hb)]

theorem checkedRem_of_ne_zero (a : U256) {b : U256} (hb : b ≠ zero) :
    a.checkedRem b = .ok (ofNat (a.toNat % b.toNat)) := by
  rw [checkedRem_eq, if_neg (mt isZero_iff_eq_zero.mp hb)]

/-! ### Back to the dividend -/

/-- The quotient times the divisor, and the remainder added: neither operation fails, and the
remainder is smaller than the divisor. -/
theorem exists_quotient_remainder (a : U256) {b : U256} (hb : b ≠ zero) :
    ∃ q r p, a.checkedDiv b = .ok q ∧ a.checkedRem b = .ok r ∧ q.checkedMul b = .ok p ∧
      p.checkedAdd r = .ok a ∧ compare r b = .lt := by
  obtain ⟨p, hp, ha⟩ := integersBelow.exists_mul_add_eq checkedMul_eq_ok_iff checkedAdd_eq_ok_iff
  refine ⟨_, _, p, checkedDiv_of_ne_zero a hb, checkedRem_of_ne_zero a hb, hp, ha, ?_⟩
  rw [compare_eq, integersBelow.toNat_ofNat_mod, Nat.compare_eq_lt]
  exact Nat.mod_lt _ (toNat_pos hb)

/-! ### Which products fit -/

/-- Some product is at most an integer exactly if the product of the numbers is: one that has no
place in 256 bits is greater than all integers. -/
theorem exists_checkedMul_isLE_iff {a b c : U256} :
    (∃ p, a.checkedMul b = .ok p ∧ (compare p c).isLE) ↔ a.toNat * b.toNat ≤ c.toNat := by
  constructor
  · rintro ⟨p, hp, hle⟩
    rw [compare_eq, Nat.isLE_compare] at hle
    rwa [checkedMul_eq_ok_iff.mp hp]
  · intro hle
    have hp := toNat_ofNat_of_lt (hle.trans_lt c.toNat_lt)
    refine ⟨ofNat (a.toNat * b.toNat), checkedMul_eq_ok_iff.mpr hp.symm, ?_⟩
    rwa [compare_eq, hp, Nat.isLE_compare]

/-- Division is adjoint to multiplication. -/
theorem isLE_checkedDiv_iff {a b c : U256} (hb : b ≠ zero) :
    (compare a (ofNat (c.toNat / b.toNat))).isLE ↔
      ∃ p, a.checkedMul b = .ok p ∧ (compare p c).isLE := by
  rw [exists_checkedMul_isLE_iff, compare_eq, integersBelow.toNat_ofNat_div, Nat.isLE_compare]
  exact Nat.le_div_iff_mul_le (toNat_pos hb)

theorem exists_checkedMul_error_iff {a b : U256} :
    (∃ f, a.checkedMul b = .error f) ↔ 2 ^ 256 ≤ a.toNat * b.toNat := by
  simp only [checkedMul_eq, ite_eq_error_iff, Nat.not_lt, exists_and_left, exists_eq, and_true]

/-- A factor beyond the quotient of the greatest integer makes a product that does not fit. -/
theorem compare_max_div_eq_gt_iff {a b : U256} (hb : b ≠ zero) :
    compare a (ofNat (max.toNat / b.toNat)) = .gt ↔ 2 ^ 256 ≤ a.toNat * b.toNat := by
  rw [compare_eq, integersBelow.toNat_ofNat_div, Nat.compare_eq_gt,
    Nat.div_lt_iff_lt_mul (toNat_pos hb), toNat_max]
  omega

/-- **Division agrees with multiplication.** By a divisor that is not zero, quotient and remainder
lead back to the dividend without a fault, and the remainder is smaller than the divisor. An integer
is at most a quotient exactly if its product with the divisor fits and is at most the dividend. A
product is a fault exactly if a factor exceeds the quotient of the greatest integer by the other.
Only a divisor that is zero is a fault. -/
theorem division_agrees_with_multiplication (a b : U256) :
    (b ≠ zero → ∃ q r p, a.checkedDiv b = .ok q ∧ a.checkedRem b = .ok r ∧
      q.checkedMul b = .ok p ∧ p.checkedAdd r = .ok a ∧ compare r b = .lt) ∧
    (∀ c : U256, b ≠ zero → ∃ q, c.checkedDiv b = .ok q ∧
      ((compare a q).isLE ↔ ∃ p, a.checkedMul b = .ok p ∧ (compare p c).isLE)) ∧
    ((∃ f, a.checkedMul b = .error f) ↔
      b ≠ zero ∧ ∃ q, max.checkedDiv b = .ok q ∧ compare a q = .gt) ∧
    (a.checkedDiv b = .error .divisionByZero ↔ b = zero) ∧
    (a.checkedRem b = .error .divisionByZero ↔ b = zero) := by
  refine ⟨exists_quotient_remainder a, fun c hb => ⟨_, checkedDiv_of_ne_zero c hb,
    isLE_checkedDiv_iff hb⟩, ?_, ?_, ?_⟩
  · rw [exists_checkedMul_error_iff]
    constructor
    · intro h
      have hb : b ≠ zero := by
        rintro rfl
        rw [toNat_zero, Nat.mul_zero] at h
        exact absurd h (by decide)
      exact ⟨hb, _, checkedDiv_of_ne_zero max hb, (compare_max_div_eq_gt_iff hb).mpr h⟩
    · rintro ⟨hb, q, hq, hgt⟩
      rw [checkedDiv_of_ne_zero max hb, Except.ok.injEq] at hq
      exact (compare_max_div_eq_gt_iff hb).mp (hq ▸ hgt)
  · rw [checkedDiv_eq, ite_eq_divisionByZero_iff, isZero_iff_eq_zero]
  · rw [checkedRem_eq, ite_eq_divisionByZero_iff, isZero_iff_eq_zero]

/-- Just below the greatest integer, a quotient is smaller than the factor that leads to that
integer: its product fits, and exceeds the dividend. -/
theorem division_agrees_with_multiplication_near_max :
    let a : U256 := ⟨U128.zero, U128.max⟩
    let b : U256 := ⟨U128.one, U128.one⟩
    let c : U256 := ofNat (2 ^ 256 - 2)
    a.checkedMul b = .ok max ∧
      (∃ q r p, c.checkedDiv b = .ok q ∧ c.checkedRem b = .ok r ∧ q.checkedMul b = .ok p ∧
        p.checkedAdd r = .ok c ∧ compare r b = .lt) ∧
      ∃ q, c.checkedDiv b = .ok q ∧ ¬ (compare a q).isLE := by
  intro a b c
  have hb : b ≠ zero := by decide
  have hmul : a.checkedMul b = .ok max := by decide
  refine ⟨hmul, (division_agrees_with_multiplication c b).1 hb, ?_⟩
  obtain ⟨q, hq, hle⟩ := (division_agrees_with_multiplication a b).2.1 c hb
  refine ⟨q, hq, fun h => ?_⟩
  obtain ⟨p, hp, hpc⟩ := hle.mp h
  rw [hmul, Except.ok.injEq] at hp
  subst hp
  exact absurd hpc (by decide)

end FieldWords.U256
