import FieldWords.Proofs.Bounded
import FieldWords.Proofs.U128.WideProduct
import FieldWords.U128.Basic

/-!
# Checked 128-bit arithmetic is exact

A checked operation has the exact result if that is a 128-bit integer, and its own fault otherwise
(`checkedAdd_eq`, `checkedSub_eq`, `checkedMul_eq`). So it has a result exactly if some 128-bit
integer solves the equation over the natural numbers (`checkedAdd_eq_ok_iff`,
`checkedSub_eq_ok_iff`, `checkedMul_eq_ok_iff`). Quotients and remainders fail for a zero divisor
only (`checkedDiv_eq`, `checkedRem_eq`), and put together again they are the dividend
(`exists_checkedDivRem`). What a sum or a difference loses by wrapping is in its carry
(`toNat_addWithCarry`, `toNat_subWithBorrow`).
-/

namespace FieldWords.U128

theorem toNat_ofNat_of_lt {n : ℕ} (h : n < 2 ^ 128) : (ofNat n).toNat = n := by
  rw [toNat_ofNat, Nat.mod_eq_of_lt h]

theorem isZero_iff {a : U128} : a.isZero = true ↔ a.toNat = 0 := by
  rw [isZero, beq_iff_eq, ← BitVec.toNat_inj]
  rfl

theorem toNat_eq_zero_iff {a : U128} : a.toNat = 0 ↔ a = zero := by
  rw [← toNat_inj]
  rfl

/-- Two limbs are both there exactly if their product is. -/
theorem both_iff {a b : U128} :
    (!a.isZero && !b.isZero) = true ↔ a.toNat * b.toNat ≠ 0 := by
  simp only [Bool.and_eq_true, Bool.not_eq_true', ← Bool.not_eq_true, isZero_iff, ne_eq,
    Nat.mul_eq_zero, not_or]

/-- One of two limbs is there exactly if their sum is. -/
theorem either_iff {a b : U128} :
    (!a.isZero || !b.isZero) = true ↔ a.toNat + b.toNat ≠ 0 := by
  simp only [Bool.or_eq_true, Bool.not_eq_true', ← Bool.not_eq_true, isZero_iff]
  omega

theorem integersBelow : IntegersBelow (2 ^ 128) toNat ofNat where
  toNat_lt := toNat_lt
  toNat_inj := toNat_inj
  toNat_ofNat := toNat_ofNat_of_lt

-- These are stated for any function: with a checked operation in its place the kernel would unfold
-- the operation to compare the two sides.

private theorem ok_bind {ε α β : Type} (a : α) (f : α → Except ε β) : (Except.ok a).bind f = f a :=
  rfl

private theorem error_bind {ε α β : Type} (e : ε) (f : α → Except ε β) :
    (Except.error e).bind f = .error e :=
  rfl

/-! ### Sums -/

/-- The room that a summand leaves is too small exactly if the sum leaves 128 bits. -/
theorem max_sub_lt_iff (a b : U128) :
    max.bits - b.bits < a.bits ↔ ¬ a.toNat + b.toNat < 2 ^ 128 := by
  have hb := b.toNat_lt
  have hle : b.bits ≤ max.bits := by
    rw [BitVec.le_def, max, BitVec.toNat_allOnes]
    exact Nat.le_sub_one_of_lt hb
  rw [BitVec.lt_def, BitVec.toNat_sub_of_le hle, max, BitVec.toNat_allOnes]
  change 2 ^ 128 - 1 - b.toNat < a.toNat ↔ _
  omega

theorem checkedAdd_eq (a b : U128) :
    a.checkedAdd b = if a.toNat + b.toNat < 2 ^ 128 then .ok (ofNat (a.toNat + b.toNat))
      else .error (.overflow "u128_add") := by
  by_cases h : a.toNat + b.toNat < 2 ^ 128
  · rw [checkedAdd_eq_ite, if_neg (mt (max_sub_lt_iff a b).mp (not_not_intro h)), if_pos h]
    apply congrArg Except.ok
    apply toNat_injective
    rw [toNat_ofNat, toNat, BitVec.toNat_add]
    rfl
  · rw [checkedAdd_eq_ite, if_pos ((max_sub_lt_iff a b).mpr h), if_neg h]

theorem checkedAdd_eq_ok_iff {a b c : U128} :
    a.checkedAdd b = .ok c ↔ a.toNat + b.toNat = c.toNat := by
  rw [checkedAdd_eq, integersBelow.ite_eq_ok_iff]

/-- A sum of three fails like a sum of two, wherever it leaves 128 bits. -/
theorem checkedAdd_bind_checkedAdd (a b c : U128) :
    (a.checkedAdd b).bind (·.checkedAdd c) =
      if a.toNat + b.toNat + c.toNat < 2 ^ 128 then .ok (ofNat (a.toNat + b.toNat + c.toNat))
      else .error (.overflow "u128_add") := by
  by_cases h : a.toNat + b.toNat < 2 ^ 128
  · rw [checkedAdd_eq a b, if_pos h, ok_bind, checkedAdd_eq, toNat_ofNat_of_lt h]
  · rw [checkedAdd_eq a b, if_neg h, error_bind, if_neg (by omega)]

/-! ### Differences -/

theorem checkedSub_eq (a b : U128) :
    a.checkedSub b = if b.toNat ≤ a.toNat then .ok (ofNat (a.toNat - b.toNat))
      else .error (.underflow "u128_sub") := by
  by_cases h : b.toNat ≤ a.toNat
  · have hle : b.bits ≤ a.bits := BitVec.le_def.mpr h
    rw [checkedSub_eq_ite, if_neg (BitVec.not_lt.mpr hle), if_pos h]
    apply congrArg Except.ok
    apply toNat_injective
    have ha := a.toNat_lt
    rw [toNat_ofNat_of_lt (by omega), toNat, BitVec.toNat_sub_of_le hle]
    rfl
  · rw [checkedSub_eq_ite, if_pos (BitVec.lt_def.mpr (Nat.lt_of_not_le h)), if_neg h]

theorem checkedSub_eq_ok_iff {a b c : U128} :
    a.checkedSub b = .ok c ↔ c.toNat + b.toNat = a.toNat := by
  rw [checkedSub_eq, integersBelow.ite_sub_eq_ok_iff a.toNat_lt]

/-- To take off two numbers fails like taking off their sum, wherever nothing is left. -/
theorem checkedSub_bind_checkedSub (a b c : U128) :
    (a.checkedSub b).bind (·.checkedSub c) =
      if b.toNat + c.toNat ≤ a.toNat then .ok (ofNat (a.toNat - (b.toNat + c.toNat)))
      else .error (.underflow "u128_sub") := by
  have ha := a.toNat_lt
  by_cases h : b.toNat ≤ a.toNat
  · rw [checkedSub_eq a b, if_pos h, ok_bind, checkedSub_eq, toNat_ofNat_of_lt (by omega),
      Nat.sub_sub]
    by_cases hc : b.toNat + c.toNat ≤ a.toNat
    · rw [if_pos hc, if_pos (by omega)]
    · rw [if_neg hc, if_neg (by omega)]
  · rw [checkedSub_eq a b, if_neg h, error_bind, if_neg (by omega)]

/-! ### Carries -/

theorem toNat_ofBool (c : Bool) : (ofBool c).toNat = c.toNat := by
  cases c <;> rfl

/-- The carry stands for what the sum has lost. -/
theorem toNat_addWithCarry (a b : U128) :
    (a.addWithCarry b).2.toNat * 2 ^ 128 + (a.addWithCarry b).1.toNat = a.toNat + b.toNat := by
  have ha := a.toNat_lt
  have hb := b.toNat_lt
  have hsum : (a.addWithCarry b).1.toNat = (a.toNat + b.toNat) % 2 ^ 128 :=
    BitVec.toNat_add a.bits b.bits
  rw [hsum, addWithCarry]
  by_cases h : 2 ^ 128 ≤ a.toNat + b.toNat
  · rw [decide_eq_true h, Bool.toNat_true]
    omega
  · rw [decide_eq_false h, Bool.toNat_false]
    omega

/-- The borrow stands for what the difference has been lent. -/
theorem toNat_subWithBorrow (a b : U128) :
    (a.subWithBorrow b).1.toNat + b.toNat =
      (a.subWithBorrow b).2.toNat * 2 ^ 128 + a.toNat := by
  have ha := a.toNat_lt
  have hb := b.toNat_lt
  have hdiff : (a.subWithBorrow b).1.toNat = (2 ^ 128 - b.toNat + a.toNat) % 2 ^ 128 :=
    BitVec.toNat_sub a.bits b.bits
  rw [hdiff, subWithBorrow]
  by_cases h : a.toNat < b.toNat
  · rw [decide_eq_true h, Bool.toNat_true]
    omega
  · rw [decide_eq_false h, Bool.toNat_false]
    omega

/-! ### Products -/

theorem checkedMul_eq (a b : U128) :
    a.checkedMul b = if a.toNat * b.toNat < 2 ^ 128 then .ok (ofNat (a.toNat * b.toNat))
      else .error (.overflow "u128_mul") := by
  have hwide : (WideProduct.wideMul a.bits b.bits).1.toNat * 2 ^ 128 +
      (WideProduct.wideMul a.bits b.bits).2.toNat = a.toNat * b.toNat :=
    WideProduct.toNat_wideMul a.bits b.bits
  have hlow : (WideProduct.wideMul a.bits b.bits).2.toNat < 2 ^ 128 := BitVec.isLt _
  have hhigh : (WideProduct.wideMul a.bits b.bits).1 = 0#128 ↔ a.toNat * b.toNat < 2 ^ 128 := by
    rw [← BitVec.toNat_inj, BitVec.toNat_ofNat]
    omega
  by_cases h : a.toNat * b.toNat < 2 ^ 128
  · rw [checkedMul_eq_ite, if_pos h]
    simp only [if_pos (hhigh.mpr h)]
    apply congrArg Except.ok
    apply toNat_injective
    rw [toNat_ofNat_of_lt h]
    change (WideProduct.wideMul a.bits b.bits).2.toNat = _
    omega
  · rw [checkedMul_eq_ite, if_neg h]
    simp only [if_neg (mt hhigh.mp h)]

theorem checkedMul_eq_ok_iff {a b c : U128} :
    a.checkedMul b = .ok c ↔ a.toNat * b.toNat = c.toNat := by
  rw [checkedMul_eq, integersBelow.ite_eq_ok_iff]

/-! ### Quotients and remainders -/

theorem mk_div (a b : U128) : (⟨a.bits / b.bits⟩ : U128) = ofNat (a.toNat / b.toNat) := by
  apply toNat_injective
  rw [integersBelow.toNat_ofNat_div, toNat, BitVec.toNat_udiv]
  rfl

theorem mk_mod (a b : U128) : (⟨a.bits % b.bits⟩ : U128) = ofNat (a.toNat % b.toNat) := by
  apply toNat_injective
  rw [integersBelow.toNat_ofNat_mod, toNat, BitVec.toNat_umod]
  rfl

theorem checkedDiv_eq (a b : U128) :
    a.checkedDiv b =
      if b.toNat = 0 then .error .divisionByZero else .ok (ofNat (a.toNat / b.toNat)) := by
  rw [checkedDiv_eq_ite, mk_div]
  simp only [isZero_iff]

theorem checkedRem_eq (a b : U128) :
    a.checkedRem b =
      if b.toNat = 0 then .error .divisionByZero else .ok (ofNat (a.toNat % b.toNat)) := by
  rw [checkedRem_eq_ite, mk_mod]
  simp only [isZero_iff]

theorem checkedDivRem_eq (a b : U128) :
    a.checkedDivRem b =
      if b.toNat = 0 then .error .divisionByZero
      else .ok (ofNat (a.toNat / b.toNat), ofNat (a.toNat % b.toNat)) := by
  rw [checkedDivRem_eq_ite, mk_div, mk_mod]
  simp only [isZero_iff]

/-- A divisor that is not zero has a quotient and a smaller remainder, and they lead back to the
dividend without a fault. -/
theorem exists_checkedDivRem (a : U128) {b : U128} (hb : b.toNat ≠ 0) :
    ∃ q r p, a.checkedDivRem b = .ok (q, r) ∧ a.checkedDiv b = .ok q ∧ a.checkedRem b = .ok r ∧
      compare r b = .lt ∧ q.checkedMul b = .ok p ∧ p.checkedAdd r = .ok a := by
  obtain ⟨p, hp, ha⟩ := integersBelow.exists_mul_add_eq checkedMul_eq_ok_iff checkedAdd_eq_ok_iff
  refine ⟨ofNat (a.toNat / b.toNat), ofNat (a.toNat % b.toNat), p, ?_, ?_, ?_, ?_, hp, ha⟩
  · rw [checkedDivRem_eq, if_neg hb]
  · rw [checkedDiv_eq, if_neg hb]
  · rw [checkedRem_eq, if_neg hb]
  · change compare (ofNat (a.toNat % b.toNat)).toNat b.toNat = .lt
    rw [integersBelow.toNat_ofNat_mod, Nat.compare_eq_lt]
    exact Nat.mod_lt _ (Nat.pos_of_ne_zero hb)

end FieldWords.U128
