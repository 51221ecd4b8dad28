import Mathlib.Algebra.Order.Ring.Nat
import FieldWords.Fault

/-!
# Integers below a bound

The integers of a fixed width are the numbers below a bound, each with a single integer
(`IntegersBelow`). A checked operation on them is the exact one wherever the result is such a
number: what follows from this does not depend on the width. It says when there is a result
(`exists_ok_iff`, `exists_ok_sub_iff`), which fault stands for the others (`ite_eq_error_iff`), and
that a quotient and a remainder lead back to the dividend (`exists_mul_add_eq`).
-/

namespace FieldWords

theorem ite_eq_error_iff {α : Type} {p : Prop} [Decidable p] {x : α} {e f : Fault} :
    (if p then .ok x else .error e) = (Except.error f : Except Fault α) ↔ ¬ p ∧ f = e := by
  by_cases h : p
  · simp [h]
  · simp [h, eq_comm]

theorem exists_ite_eq_ok_iff {ε α : Type} {p : Prop} [Decidable p] {x : α} {e : ε} :
    (∃ y, (if p then .ok x else .error e) = (Except.ok y : Except ε α)) ↔ p := by
  by_cases h : p
  · simp [h]
  · simp [h]

/-- The other side of a test is the only one with the fault. -/
theorem ite_eq_error_self_iff {α : Type} {p : Prop} [Decidable p] {x : α} {e : Fault} :
    (if p then .ok x else .error e) = (Except.error e : Except Fault α) ↔ ¬ p := by
  rw [ite_eq_error_iff, and_iff_left rfl]

theorem ite_eq_divisionByZero_iff {α : Type} {p : Prop} [Decidable p] {x : α} :
    (if p then .error .divisionByZero else .ok x) =
      (Except.error .divisionByZero : Except Fault α) ↔ p := by
  by_cases h : p
  · simp [h]
  · simp [h]

/-- Each number below the bound is that of one integer. -/
structure IntegersBelow {α : Type} (bound : ℕ) (toNat : α → ℕ) (ofNat : ℕ → α) : Prop where
  toNat_lt : ∀ a, toNat a < bound
  toNat_inj : ∀ {a b}, toNat a = toNat b ↔ a = b
  toNat_ofNat : ∀ {n}, n < bound → toNat (ofNat n) = n

namespace IntegersBelow

variable {α : Type} {bound : ℕ} {toNat : α → ℕ} {ofNat : ℕ → α}
  (h : IntegersBelow bound toNat ofNat) {r : Except Fault α} {a b c : α} {m n : ℕ} {f : Fault}
  {ε : Type} {e : ε}

include h

/-- A result that is there if it is below the bound is the exact one. -/
theorem ite_eq_ok_iff :
    (if n < bound then .ok (ofNat n) else .error e) = (Except.ok c : Except ε α) ↔
      n = toNat c := by
  split
  · next hn => rw [Except.ok.injEq, ← h.toNat_inj, h.toNat_ofNat hn]
  · next hn => exact iff_of_false (by simp) fun hc => hn (hc ▸ h.toNat_lt c)

/-- A difference that is there if it is not negative is the exact one. -/
theorem ite_sub_eq_ok_iff (hm : m < bound) :
    (if n ≤ m then .ok (ofNat (m - n)) else .error f) = (Except.ok c : Except Fault α) ↔
      toNat c + n = m := by
  split
  · next hn =>
    rw [Except.ok.injEq, ← h.toNat_inj, h.toNat_ofNat (by omega)]
    omega
  · next hn => exact iff_of_false (by simp) (by omega)

theorem exists_ok_iff (hr : ∀ c, r = .ok c ↔ n = toNat c) :
    (∃ c, r = .ok c ∧ toNat c = n) ↔ n < bound := by
  constructor
  · rintro ⟨c, -, rfl⟩
    exact h.toNat_lt c
  · intro hn
    have hc := h.toNat_ofNat hn
    exact ⟨ofNat n, (hr _).mpr hc.symm, hc⟩

theorem exists_ok_sub_iff (hm : m < bound) (hr : ∀ c, r = .ok c ↔ toNat c + n = m) :
    (∃ c, r = .ok c ∧ (toNat c : ℤ) = m - n) ↔ n ≤ m := by
  constructor
  · rintro ⟨c, -, hc⟩
    omega
  · intro hn
    have hc : toNat (ofNat (m - n)) = m - n := h.toNat_ofNat (by omega)
    exact ⟨ofNat (m - n), (hr _).mpr (by omega), by omega⟩

theorem toNat_ofNat_div : toNat (ofNat (toNat a / toNat b)) = toNat a / toNat b :=
  h.toNat_ofNat ((Nat.div_le_self _ _).trans_lt (h.toNat_lt a))

theorem toNat_ofNat_mod : toNat (ofNat (toNat a % toNat b)) = toNat a % toNat b :=
  h.toNat_ofNat ((Nat.mod_le _ _).trans_lt (h.toNat_lt a))

/-- A quotient times the divisor is at most the dividend, and so is what the remainder adds. So
neither step leaves the bound if both are exact. -/
theorem exists_mul_add_eq {mul add : α → α → Except Fault α}
    (hmul : ∀ {a b c}, mul a b = .ok c ↔ toNat a * toNat b = toNat c)
    (hadd : ∀ {a b c}, add a b = .ok c ↔ toNat a + toNat b = toNat c) :
    ∃ p, mul (ofNat (toNat a / toNat b)) b = .ok p ∧
      add p (ofNat (toNat a % toNat b)) = .ok a := by
  have hp := h.toNat_ofNat ((Nat.div_mul_le_self (toNat a) (toNat b)).trans_lt (h.toNat_lt a))
  refine ⟨ofNat (toNat a / toNat b * toNat b), hmul.mpr ?_, hadd.mpr ?_⟩
  · rw [hp, h.toNat_ofNat_div]
  · rw [hp, h.toNat_ofNat_mod]
    exact Nat.div_add_mod' _ _

end IntegersBelow

end FieldWords
