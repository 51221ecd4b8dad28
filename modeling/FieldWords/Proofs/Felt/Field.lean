import FieldWords.Proofs.Felt.Residue

/-!
# The elements form a field

Since the number of elements is prime, the residue classes of elements form a field, and so do the
elements: there are no zero divisors, every element but zero has exactly one inverse, and
multiplication by it is a permutation of the elements.
-/

namespace FieldWords.Felt

theorem toZMod_eq_zero {a : Felt} : a.toZMod = 0 ↔ a = zero := by
  rw [← toZMod_zero, toZMod_inj]

theorem mul_eq_zero_iff {a b : Felt} : a * b = zero ↔ a = zero ∨ b = zero := by
  rw [← toZMod_eq_zero, ← toZMod_eq_zero, ← toZMod_eq_zero, toZMod_mul, mul_eq_zero]

/-- Multiplication by an element but zero reaches every element, and each only once. -/
theorem mul_bijective {a : Felt} (ha : a ≠ zero) : Function.Bijective fun b : Felt => a * b := by
  have hz : a.toZMod ≠ 0 := fun h => ha (toZMod_eq_zero.mp h)
  constructor
  · intro b c h
    have hm : a.toZMod * b.toZMod = a.toZMod * c.toZMod := by
      rw [← toZMod_mul, ← toZMod_mul]
      exact congrArg toZMod h
    exact toZMod_injective (mul_left_cancel₀ hz hm)
  · intro c
    refine ⟨ofZMod (a.toZMod⁻¹ * c.toZMod), toZMod_injective ?_⟩
    rw [toZMod_mul, toZMod_ofZMod, mul_inv_cancel_left₀ hz]

/-- **The elements form a field**: a product is zero only if a factor is, and every element but zero
has exactly one inverse, since multiplication by it is a bijection. -/
theorem no_zero_divisors_and_unique_inverses :
    (∀ a b : Felt, a * b = zero ↔ a = zero ∨ b = zero) ∧
    ∀ a : Felt, a ≠ zero →
      (∃! b : Felt, a * b = one) ∧ Function.Bijective fun b : Felt => a * b := by
  refine ⟨fun a b => mul_eq_zero_iff, fun a ha => ?_⟩
  have hbij := mul_bijective ha
  exact ⟨hbij.existsUnique one, hbij⟩

/-- The greatest element is not zero, so it has exactly one inverse: itself. -/
theorem no_zero_divisors_and_unique_inverses_max :
    max ≠ zero ∧ max * max = one ∧ ∀ b : Felt, max * b = one → b = max := by
  have hne : max ≠ zero := by decide
  have hsq : max * max = one := by
    apply val_injective
    rw [val_mul]
    decide
  obtain ⟨⟨c, -, hc⟩, -⟩ := no_zero_divisors_and_unique_inverses.2 max hne
  refine ⟨hne, hsq, fun b hb => ?_⟩
  rw [hc b hb, hc max hsq]

end FieldWords.Felt
