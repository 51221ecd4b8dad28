import FieldWords.Proofs.Felt.Narrowing

/-!
# Elements against checked integers

Sums and products of 128-bit integers may be computed in the field instead. The prime lies so far
above `2 ^ 128` that the sum of two integers does not wrap, and a difference that wraps comes out
above `2 ^ 128` again; so an element fits an integer exactly if the checked operation has a result
(`toU128_add_eq_ok_iff`, `toU128_sub_eq_ok_iff`). A product wraps as soon as it is longer than the
prime, and is the remainder of the product in 256 bits (`checkedRem_prime`).
-/

namespace FieldWords.Felt

/-! ### Sums and differences -/

/-- Integers lie so far below the prime that two of them and a third leave room. -/
theorem toNat_add_toNat_lt_prime (a b c : U128) : a.toNat + b.toNat + c.toNat < prime := by
  have ha := a.toNat_lt
  have hb := b.toNat_lt
  have hc := c.toNat_lt
  have hp : 3 * 2 ^ 128 ≤ prime := by decide
  omega

theorem val_ofU128_add (a b : U128) : (ofU128 a + ofU128 b).val = a.toNat + b.toNat := by
  have hlt := toNat_add_toNat_lt_prime a b a
  rw [val_add, val_ofU128, val_ofU128, Nat.mod_eq_of_lt (by omega)]

theorem toU128_add_eq_ok_iff {a b c : U128} :
    (ofU128 a + ofU128 b).toU128 = .ok c ↔ a.checkedAdd b = .ok c := by
  rw [toU128_eq_ok_iff, U128.checkedAdd_eq_ok_iff, val_ofU128_add]

theorem toU128_sub_eq_ok_iff {a b c : U128} :
    (ofU128 a - ofU128 b).toU128 = .ok c ↔ a.checkedSub b = .ok c := by
  have hlt := toNat_add_toNat_lt_prime a b c
  rw [toU128_eq_ok_iff, U128.checkedSub_eq_ok_iff, val_sub, val_ofU128, val_ofU128]
  by_cases h : b.toNat ≤ a.toNat
  · have hwrap : a.toNat + (prime - b.toNat) = a.toNat - b.toNat + prime := by omega
    rw [hwrap, Nat.add_mod_right, Nat.mod_eq_of_lt (by omega)]
    omega
  · -- what is lacking is taken from the prime, which leaves more than any integer
    rw [Nat.mod_eq_of_lt (by omega)]
    omega

/-! ### Products -/

/-- A product that is an integer does not wrap. -/
theorem ofU128_mul_of_checkedMul {a b c : U128} (h : a.checkedMul b = .ok c) :
    ofU128 a * ofU128 b = ofU128 c := by
  have hmul := U128.checkedMul_eq_ok_iff.mp h
  apply val_injective
  rw [val_mul, val_ofU128, val_ofU128, hmul, ← val_ofU128, Nat.mod_eq_of_lt (ofU128 c).isLt]

theorem toNat_ofBytes_primeBytes : (U256.ofBytes primeBytes).toNat = prime := by
  rw [primeBytes, U256.toNat_ofBytes (Bytes.length_ofNat 32 prime),
    Bytes.value_ofNat_of_lt (by decide)]

/-- Remainders by the prime are what elements are reduced to. -/
theorem checkedRem_prime (x : U256) :
    x.checkedRem (U256.ofBytes primeBytes) = .ok (ofNat x.toNat).toU256 := by
  have hne : ¬ (U256.ofBytes primeBytes).isZero = true := by
    rw [U256.isZero_iff, toNat_ofBytes_primeBytes]
    exact prime_pos.ne'
  rw [U256.checkedRem_eq, if_neg hne, toNat_ofBytes_primeBytes]
  apply congrArg Except.ok
  apply U256.toNat_injective
  have hlt : x.toNat % prime < 2 ^ 256 := (Nat.mod_lt _ prime_pos).trans (by decide)
  rw [U256.toNat_ofNat_of_lt hlt, toNat_toU256, val_ofNat]

theorem mul_ofU128 (a b : U128) : ofU128 a * ofU128 b = ofNat (a.toNat * b.toNat) := by
  apply val_injective
  rw [val_mul, val_ofNat, val_ofU128, val_ofU128]

/-- **Field arithmetic agrees with checked integers.** The sum and the difference of the elements of
two integers fit an integer exactly if the checked operation has a result, which is the same one. A
checked product has the element of its factors' product. In 256 bits the product never fails, and
its remainder by the prime is the integer of the product of elements. -/
theorem arithmetic_agrees_with_checked_integers (a b : U128) :
    (∀ c, (ofU128 a + ofU128 b).toU128 = .ok c ↔ a.checkedAdd b = .ok c) ∧
    (∀ c, (ofU128 a - ofU128 b).toU128 = .ok c ↔ a.checkedSub b = .ok c) ∧
    (∀ c, a.checkedMul b = .ok c → ofU128 a * ofU128 b = ofU128 c) ∧
    ∃ p, (U256.ofU128 a).checkedMul (U256.ofU128 b) = .ok p ∧
      p.checkedRem (U256.ofBytes primeBytes) = .ok (ofU128 a * ofU128 b).toU256 := by
  refine ⟨fun c => toU128_add_eq_ok_iff, fun c => toU128_sub_eq_ok_iff,
    fun c => ofU128_mul_of_checkedMul, U256.mulLimbs a b, U256.checkedMul_ofU128 a b, ?_⟩
  rw [checkedRem_prime, U256.toNat_mulLimbs, mul_ofU128]

/-- Two integers on both sides of `2 ^ 64` have the greatest product that fits, and so do their
elements. Their difference fits one way round only. -/
theorem arithmetic_agrees_with_checked_integers_at_limits :
    let a := U128.ofNat (2 ^ 64 - 1)
    let b := U128.ofNat (2 ^ 64 + 1)
    a.checkedMul b = .ok U128.max ∧ ofU128 a * ofU128 b = ofU128 U128.max ∧
      (ofU128 b - ofU128 a).toU128 = .ok (U128.ofNat 2) ∧
      ∀ c, (ofU128 a - ofU128 b).toU128 ≠ .ok c := by
  intro a b
  have hmul : a.checkedMul b = .ok U128.max := by decide
  have hsub : b.checkedSub a = .ok (U128.ofNat 2) := by decide
  have hfault : a.checkedSub b = .error (.underflow "u128_sub") := by decide
  obtain ⟨-, hdiff, hprod, -⟩ := arithmetic_agrees_with_checked_integers a b
  refine ⟨hmul, hprod U128.max hmul, ?_, fun c => ?_⟩
  · exact ((arithmetic_agrees_with_checked_integers b a).2.1 _).mpr hsub
  · rw [ne_eq, hdiff c, hfault]
    simp

end FieldWords.Felt
