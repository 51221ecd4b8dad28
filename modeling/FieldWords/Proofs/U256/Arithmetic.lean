import FieldWords.Proofs.Lexicographic
import FieldWords.Proofs.U128.Arithmetic
import FieldWords.Proofs.U256.Encoding
import FieldWords.U256.Arithmetic

/-!
# Checked 256-bit arithmetic is exact

A checked operation has the exact result if that is a 256-bit integer, and its own fault otherwise,
whichever limb fails on the way (`checkedAdd_eq`, `checkedSub_eq`, `checkedMul_eq`). For sums and
differences the carry of the low limbs is exact, and the high limbs fail where the integers do. The
product of two limbs is an integer of two limbs (`toNat_mulLimbs`). A product of integers is the sum
of four such products, each at its place (`toNat_mul_toNat`); what has no place in the result is
zero exactly if the product is below `2 ^ 256`. Quotients and remainders are those of the numbers,
through the words of both (`checkedDiv_eq`, `checkedRem_eq`). The order by limbs is the order of the
numbers (`compare_eq`).
-/

namespace FieldWords.U256

theorem toNat_ofNat_of_lt {n : ℕ} (h : n < 2 ^ 256) : (ofNat n).toNat = n := by
  rw [toNat_ofNat, Nat.mod_eq_of_lt h]

theorem toNat_mk (high low : U128) :
    (mk high low).toNat = high.toNat * 2 ^ 128 + low.toNat := rfl

theorem isZero_iff {a : U256} : a.isZero = true ↔ a.toNat = 0 := by
  rw [isZero, Bool.and_eq_true, U128.isZero_iff, U128.isZero_iff, toNat]
  omega

/-- A single limb keeps its number. -/
theorem toNat_ofU128 (a : U128) : (ofU128 a).toNat = a.toNat := by
  have hzero : U128.zero.toNat = 0 := rfl
  rw [ofU128, toNat_mk, hzero, Nat.zero_mul, Nat.zero_add]

theorem toNat_zero : zero.toNat = 0 := rfl

theorem toNat_eq_zero_iff {a : U256} : a.toNat = 0 ↔ a = zero := by
  rw [← toNat_zero, toNat_inj]

theorem integersBelow : IntegersBelow (2 ^ 256) toNat ofNat where
  toNat_lt := toNat_lt
  toNat_inj := toNat_inj
  toNat_ofNat := toNat_ofNat_of_lt

/-- Integers compare by their high limbs first, which is how their numbers compare. -/
theorem compare_eq (a b : U256) : compare a b = compare a.toNat b.toNat := by
  have hlimbs : compare a b =
      (compare a.high.toNat b.high.toNat).then (compare a.low.toNat b.low.toNat) := rfl
  rw [hlimbs, compare_then_compare a.low.toNat_lt b.low.toNat_lt, toNat, toNat]

/-! ### Sums and differences -/

section ByLimbs

/-- An operation on the low limbs, and one on the high limbs and on what the low ones carry. -/
def byLimbs (lower : U128 → U128 → U128 × Bool) (upper : U128 → U128 → Except Fault U128)
    (fault : Fault) (a b : U256) : Except Fault U256 :=
  let (low, carry) := lower a.low b.low
  match (upper a.high b.high).bind (upper · (.ofBool carry)) with
  | .ok high => .ok ⟨high, low⟩
  | .error _ => .error fault

-- The operations on limbs are variables here. With those of a sum or a difference in their place
-- the kernel would unfold them, down to `2 ^ 128`, to see which way the match goes.
variable {lower : U128 → U128 → U128 × Bool} {upper : U128 → U128 → Except Fault U128}
  {fault : Fault} {a b : U256}

theorem byLimbs_of_ok {high : U128}
    (h : (upper a.high b.high).bind (upper · (.ofBool (lower a.low b.low).2)) = .ok high) :
    byLimbs lower upper fault a b = .ok ⟨high, (lower a.low b.low).1⟩ := by
  simp only [byLimbs, h]

theorem byLimbs_of_error {f : Fault}
    (h : (upper a.high b.high).bind (upper · (.ofBool (lower a.low b.low).2)) = .error f) :
    byLimbs lower upper fault a b = .error fault := by
  simp only [byLimbs, h]

end ByLimbs

theorem checkedAdd_eq_byLimbs :
    checkedAdd = byLimbs U128.addWithCarry U128.checkedAdd (.overflow "u256_add") := rfl

theorem checkedSub_eq_byLimbs :
    checkedSub = byLimbs U128.subWithBorrow U128.checkedSub (.underflow "u256_sub") := rfl

/-- Above a low limb the high one decides whether a number fits. -/
theorem mul_add_lt_iff {high low : ℕ} (hlow : low < 2 ^ 128) :
    high * 2 ^ 128 + low < 2 ^ 256 ↔ high < 2 ^ 128 := by
  omega

theorem checkedAdd_eq (a b : U256) :
    a.checkedAdd b = if a.toNat + b.toNat < 2 ^ 256 then .ok (ofNat (a.toNat + b.toNat))
      else .error (.overflow "u256_add") := by
  have hlow := (a.low.addWithCarry b.low).1.toNat_lt
  have hupper := U128.checkedAdd_bind_checkedAdd a.high b.high
    (.ofBool (a.low.addWithCarry b.low).2)
  rw [U128.toNat_ofBool] at hupper
  have hsum : a.toNat + b.toNat =
      (a.high.toNat + b.high.toNat + (a.low.addWithCarry b.low).2.toNat) * 2 ^ 128 +
        (a.low.addWithCarry b.low).1.toNat := by
    rw [Nat.add_mul _ (Bool.toNat _), Nat.add_assoc, U128.toNat_addWithCarry, toNat, toNat]
    ring
  rw [checkedAdd_eq_byLimbs, hsum]
  by_cases h : a.high.toNat + b.high.toNat + (a.low.addWithCarry b.low).2.toNat < 2 ^ 128
  · have hfits := (mul_add_lt_iff hlow).mpr h
    rw [byLimbs_of_ok (hupper.trans (if_pos h)), if_pos hfits]
    apply congrArg Except.ok
    apply toNat_injective
    rw [toNat_ofNat_of_lt hfits, toNat_mk, U128.toNat_ofNat_of_lt h]
  · rw [byLimbs_of_error (hupper.trans (if_neg h)), if_neg (mt (mul_add_lt_iff hlow).mp h)]

theorem checkedAdd_eq_ok_iff {a b c : U256} :
    a.checkedAdd b = .ok c ↔ a.toNat + b.toNat = c.toNat := by
  rw [checkedAdd_eq, integersBelow.ite_eq_ok_iff]

/-- With the borrow among what is taken off, the high limbs decide whether anything is left, and how
much it is. -/
theorem le_iff_of_borrow {a b high taken low : ℕ} (hlow : low < 2 ^ 128)
    (h : taken * 2 ^ 128 + a = high * 2 ^ 128 + (low + b)) :
    (b ≤ a ↔ taken ≤ high) ∧ (taken ≤ high → a - b = (high - taken) * 2 ^ 128 + low) := by
  omega

theorem checkedSub_eq (a b : U256) :
    a.checkedSub b = if b.toNat ≤ a.toNat then .ok (ofNat (a.toNat - b.toNat))
      else .error (.underflow "u256_sub") := by
  have ha := a.toNat_lt
  have hhigh := a.high.toNat_lt
  have hlow := (a.low.subWithBorrow b.low).1.toNat_lt
  have hupper := U128.checkedSub_bind_checkedSub a.high b.high
    (.ofBool (a.low.subWithBorrow b.low).2)
  rw [U128.toNat_ofBool] at hupper
  have hdiff : (b.high.toNat + (a.low.subWithBorrow b.low).2.toNat) * 2 ^ 128 + a.toNat =
      a.high.toNat * 2 ^ 128 + ((a.low.subWithBorrow b.low).1.toNat + b.toNat) := by
    have hborrow := U128.toNat_subWithBorrow a.low b.low
    rw [toNat, toNat]
    linarith
  obtain ⟨hle, hleft⟩ := le_iff_of_borrow hlow hdiff
  rw [checkedSub_eq_byLimbs]
  by_cases h : b.high.toNat + (a.low.subWithBorrow b.low).2.toNat ≤ a.high.toNat
  · rw [byLimbs_of_ok (hupper.trans (if_pos h)), if_pos (hle.mpr h)]
    apply congrArg Except.ok
    apply toNat_injective
    rw [toNat_ofNat_of_lt ((Nat.sub_le _ _).trans_lt ha), toNat_mk,
      U128.toNat_ofNat_of_lt ((Nat.sub_le _ _).trans_lt hhigh), hleft h]
  · rw [byLimbs_of_error (hupper.trans (if_neg h)), if_neg (mt hle.mp h)]

theorem checkedSub_eq_ok_iff {a b c : U256} :
    a.checkedSub b = .ok c ↔ c.toNat + b.toNat = a.toNat := by
  rw [checkedSub_eq, integersBelow.ite_sub_eq_ok_iff a.toNat_lt]

/-- **Checked sums and differences are exact.** A sum has a result, which is the exact one, exactly
if that is below `2 ^ 256`, and a difference exactly if it is not negative; all others are faults of
the operation, whichever limb has failed. So a sum is undone by a difference, and a difference by a
sum. -/
theorem checkedAdd_and_checkedSub_exact (a b : U256) :
    ((∃ c, a.checkedAdd b = .ok c ∧ c.toNat = a.toNat + b.toNat) ↔
      a.toNat + b.toNat < 2 ^ 256) ∧
    (a.checkedAdd b = .error (.overflow "u256_add") ↔ ¬ a.toNat + b.toNat < 2 ^ 256) ∧
    ((∃ c, a.checkedSub b = .ok c ∧ (c.toNat : ℤ) = a.toNat - b.toNat) ↔ b.toNat ≤ a.toNat) ∧
    (a.checkedSub b = .error (.underflow "u256_sub") ↔ ¬ b.toNat ≤ a.toNat) ∧
    ∀ c, a.checkedAdd b = .ok c ↔ c.checkedSub b = .ok a := by
  refine ⟨integersBelow.exists_ok_iff fun c => checkedAdd_eq_ok_iff, ?_,
    integersBelow.exists_ok_sub_iff a.toNat_lt fun c => checkedSub_eq_ok_iff, ?_, fun c => ?_⟩
  · rw [checkedAdd_eq, ite_eq_error_self_iff]
  · rw [checkedSub_eq, ite_eq_error_self_iff]
  · rw [checkedAdd_eq_ok_iff, checkedSub_eq_ok_iff]

/-! ### Products -/

theorem toNat_mulLimbs (a b : U128) : (mulLimbs a b).toNat = a.toNat * b.toNat :=
  WideProduct.toNat_wideMul a.bits b.bits

/-- A product by limbs, in the order of their places. What stands at `2 ^ 256` has no place in the
result. -/
theorem toNat_mul_toNat (a b : U256) :
    a.toNat * b.toNat =
      (a.high.toNat * b.high.toNat + (mulLimbs a.low b.high).high.toNat +
        (mulLimbs a.high b.low).high.toNat) * 2 ^ 256 +
      ((mulLimbs a.low b.low).high.toNat + (mulLimbs a.low b.high).low.toNat +
        (mulLimbs a.high b.low).low.toNat) * 2 ^ 128 +
      (mulLimbs a.low b.low).low.toNat := by
  have hll := toNat_mulLimbs a.low b.low
  have hlh := toNat_mulLimbs a.low b.high
  have hhl := toNat_mulLimbs a.high b.low
  have hsplit : a.toNat * b.toNat = a.high.toNat * b.high.toNat * 2 ^ 256 +
      (a.low.toNat * b.high.toNat + a.high.toNat * b.low.toNat) * 2 ^ 128 +
      a.low.toNat * b.low.toNat := by
    rw [toNat, toNat]
    ring
  rw [toNat] at hll hlh hhl
  rw [hsplit, ← hll, ← hlh, ← hhl]
  ring

/-- Two high limbs have no room for their product. -/
theorem le_mul_of_both {a b : U256} (h : (!a.high.isZero && !b.high.isZero) = true) :
    2 ^ 256 ≤ a.toNat * b.toNat := by
  have hmul := toNat_mul_toNat a b
  have hboth := U128.both_iff.mp h
  omega

/-- A product across that has a high limb has no room for it. -/
theorem le_mul_of_across {a b : U256}
    (h : (!(mulLimbs a.low b.high).high.isZero || !(mulLimbs a.high b.low).high.isZero) = true) :
    2 ^ 256 ≤ a.toNat * b.toNat := by
  have hmul := toNat_mul_toNat a b
  have hacross := U128.either_iff.mp h
  omega

theorem checkedMul_eq (a b : U256) :
    a.checkedMul b = if a.toNat * b.toNat < 2 ^ 256 then .ok (ofNat (a.toNat * b.toNat))
      else .error (.overflow "u256_mul") := by
  have hmul := toNat_mul_toNat a b
  have hlow := (mulLimbs a.low b.low).low.toNat_lt
  simp only [checkedMul]
  by_cases hboth : (!a.high.isZero && !b.high.isZero) = true
  · rw [if_pos hboth, if_neg (Nat.not_lt.mpr (le_mul_of_both hboth))]
  by_cases hacross :
      (!(mulLimbs a.low b.high).high.isZero || !(mulLimbs a.high b.low).high.isZero) = true
  · rw [if_neg hboth, if_pos hacross, if_neg (Nat.not_lt.mpr (le_mul_of_across hacross))]
  -- what is left of the product has its place in the two limbs of the result
  have hhigh := not_not.mp (mt U128.both_iff.mpr hboth)
  have hmiddle := not_not.mp (mt U128.either_iff.mpr hacross)
  rw [if_neg hboth, if_neg hacross, U128.checkedAdd_bind_checkedAdd]
  by_cases hsum : (mulLimbs a.low b.low).high.toNat + (mulLimbs a.low b.high).low.toNat +
      (mulLimbs a.high b.low).low.toNat < 2 ^ 128
  · rw [if_pos hsum, if_pos (by omega)]
    apply congrArg Except.ok
    apply toNat_injective
    rw [toNat_ofNat_of_lt (by omega), toNat_mk, U128.toNat_ofNat_of_lt hsum]
    omega
  · rw [if_neg hsum, if_neg (by omega)]

theorem checkedMul_eq_ok_iff {a b c : U256} :
    a.checkedMul b = .ok c ↔ a.toNat * b.toNat = c.toNat := by
  rw [checkedMul_eq, integersBelow.ite_eq_ok_iff]

/-- **Checked products are exact.** A product has a result, which is the exact one, exactly if that
is below `2 ^ 256`, and is a fault of the operation otherwise; no limb that fails on the way shows a
fault of its own. Neither test that ends the operation before limbs are added rejects a product
that fits. -/
theorem checkedMul_exact (a b : U256) :
    ((∃ c, a.checkedMul b = .ok c ∧ c.toNat = a.toNat * b.toNat) ↔
      a.toNat * b.toNat < 2 ^ 256) ∧
    (a.checkedMul b = .error (.overflow "u256_mul") ↔ 2 ^ 256 ≤ a.toNat * b.toNat) ∧
    (∀ f, a.checkedMul b = .error f → f = .overflow "u256_mul") ∧
    ((!a.high.isZero && !b.high.isZero) = true → 2 ^ 256 ≤ a.toNat * b.toNat) ∧
    ((!(mulLimbs a.low b.high).high.isZero || !(mulLimbs a.high b.low).high.isZero) = true →
      2 ^ 256 ≤ a.toNat * b.toNat) := by
  refine ⟨integersBelow.exists_ok_iff fun c => checkedMul_eq_ok_iff, ?_, fun f hf => ?_,
    le_mul_of_both, le_mul_of_across⟩
  · rw [checkedMul_eq, ite_eq_error_self_iff, Nat.not_lt]
  · rw [checkedMul_eq, ite_eq_error_iff] at hf
    exact hf.2

/-- The greatest product that fits has a full high limb. At `2 ^ 256` each test ends one product,
and just beyond it limbs overflow that both have let pass. -/
theorem checkedMul_exact_at_each_end :
    let low : U256 := ⟨U128.zero, U128.max⟩
    let next : U256 := ⟨U128.one, U128.one⟩
    let high : U256 := ⟨U128.one, U128.zero⟩
    let half : U256 := ⟨U128.ofNat (2 ^ 127), U128.zero⟩
    let two : U256 := ⟨U128.zero, U128.ofNat 2⟩
    let wide : U256 := ⟨U128.one, U128.max⟩
    (∃ c, low.checkedMul next = .ok c ∧ c.toNat = low.toNat * next.toNat) ∧
      2 ^ 256 ≤ high.toNat * high.toNat ∧ 2 ^ 256 ≤ half.toNat * two.toNat ∧
      (mulLimbs wide.low low.low).high.checkedAdd (mulLimbs wide.high low.low).low =
        .error (.overflow "u128_add") ∧
      ∃ f, wide.checkedMul low = .error f ∧ f = .overflow "u256_mul" := by
  intro low next high half two wide
  have hwide : wide.checkedMul low = .error (.overflow "u256_mul") :=
    (checkedMul_exact wide low).2.1.mpr (by decide)
  refine ⟨(checkedMul_exact low next).1.mpr (by decide), ?_, ?_, by decide, _, hwide, ?_⟩
  · exact (checkedMul_exact high high).2.2.2.1 (by decide)
  · exact (checkedMul_exact half two).2.2.2.2 (by decide)
  · exact (checkedMul_exact wide low).2.2.1 _ hwide

/-- The product of two limbs always fits. -/
theorem checkedMul_ofU128 (a b : U128) :
    (ofU128 a).checkedMul (ofU128 b) = .ok (mulLimbs a b) := by
  have hlt := (mulLimbs a b).toNat_lt
  rw [toNat_mulLimbs] at hlt
  rw [checkedMul_eq, toNat_ofU128, toNat_ofU128, if_pos hlt, ← toNat_mulLimbs, ofNat_toNat]

/-! ### Quotients and remainders -/

theorem checkedDiv_eq (a b : U256) :
    a.checkedDiv b =
      if b.isZero then .error .divisionByZero else .ok (ofNat (a.toNat / b.toNat)) := by
  have hwords : ofWords (a.toWords.div b.toWords) = ofNat (a.toNat / b.toNat) := by
    apply toNat_injective
    rw [toNat_ofWords, Words.div, toNat_toWords, toNat_toWords, Words.toNat_ofNat, toNat_ofNat]
  rw [checkedDiv, hwords]

theorem checkedRem_eq (a b : U256) :
    a.checkedRem b =
      if b.isZero then .error .divisionByZero else .ok (ofNat (a.toNat % b.toNat)) := by
  have hwords : ofWords (a.toWords.mod b.toWords) = ofNat (a.toNat % b.toNat) := by
    apply toNat_injective
    rw [toNat_ofWords, Words.mod, toNat_toWords, toNat_toWords, Words.toNat_ofNat, toNat_ofNat]
  rw [checkedRem, hwords]

end FieldWords.U256
