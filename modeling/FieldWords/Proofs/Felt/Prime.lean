import Mathlib.FieldTheory.Finite.Basic
import Mathlib.Tactic.ReduceModChar
import FieldWords.Felt.Basic

/-!
# The number of field elements is prime

`P - 1 = 2 ^ 192 * (2 ^ 59 + 17)` has a power of two in it that exceeds the root of `P`. For such a
number one power settles primality: if `a ^ ((n - 1) / 2)` is `-1` modulo `n`, every prime divisor
of `n` is one more than a multiple of that power of two (`two_pow_dvd_of_pow_eq_neg_one`), so the
smallest one is too large for `n` to be composite (`prime_of_pow_eq_neg_one`). Three is such an `a`
(`three_pow_eq_neg_one`).
-/

namespace FieldWords

/-- If the `k * 2 ^ m`-th power of a residue is `-1`, its `k`-th power has the order `2 ^ (m + 1)`,
which therefore divides `q - 1`. -/
theorem two_pow_dvd_of_pow_eq_neg_one {q k m : ℕ} [Fact q.Prime] (hq : q ≠ 2) {a : ZMod q}
    (h : a ^ (k * 2 ^ m) = -1) : 2 ^ (m + 1) ∣ q - 1 := by
  have hne : (-1 : ZMod q) ≠ 1 := by
    have : Fact (2 < q) := ⟨lt_of_le_of_ne (Fact.out : q.Prime).two_le hq.symm⟩
    exact ZMod.neg_one_ne_one
  rw [pow_mul] at h
  have hz : a ^ k ≠ 0 := by
    intro h0
    rw [h0, zero_pow (by positivity)] at h
    exact one_ne_zero (neg_eq_zero.mp h.symm)
  have hsq : (a ^ k) ^ 2 ^ (m + 1) = 1 := by rw [pow_succ, pow_mul, h, neg_one_sq]
  have ho : orderOf (a ^ k) = 2 ^ (m + 1) := by
    have : Fact (Nat.Prime 2) := ⟨Nat.prime_two⟩
    exact orderOf_eq_prime_pow (by rw [h]; exact hne) hsq
  rw [← ho]
  exact orderOf_dvd_of_pow_eq_one (ZMod.pow_card_sub_one_eq_one hz)

/-- A number `k * 2 ^ (m + 1) + 1` with `k ≤ 2 ^ (m + 1)` is prime if the power of some `a` to half
of what precedes it is `-1`. -/
theorem prime_of_pow_eq_neg_one {n k m : ℕ} (hn : n = k * 2 ^ (m + 1) + 1) (hk : 0 < k)
    (hkm : k ≤ 2 ^ (m + 1)) {a : ZMod n} (h : a ^ (k * 2 ^ m) = -1) : n.Prime := by
  have hpos : 0 < k * 2 ^ (m + 1) := by positivity
  have hn1 : n ≠ 1 := by omega
  by_contra hprime
  have hq : n.minFac.Prime := Nat.minFac_prime hn1
  have : Fact n.minFac.Prime := ⟨hq⟩
  have hodd : n.minFac ≠ 2 := by
    intro h2
    have hdvd : 2 ∣ n := h2 ▸ n.minFac_dvd
    rw [hn, pow_succ, ← mul_assoc] at hdvd
    omega
  -- the power is still `-1` modulo the smallest divisor
  have hcast := congrArg (ZMod.castHom n.minFac_dvd (ZMod n.minFac)) h
  rw [map_pow, map_neg, map_one] at hcast
  have hdvd : 2 ^ (m + 1) ∣ n.minFac - 1 := two_pow_dvd_of_pow_eq_neg_one hodd hcast
  have hle : 2 ^ (m + 1) + 1 ≤ n.minFac := by
    have := Nat.le_of_dvd (Nat.sub_pos_of_lt hq.one_lt) hdvd
    omega
  have hsq : n.minFac ^ 2 ≤ n := Nat.minFac_sq_le_self (by omega) hprime
  have hlt : n < (2 ^ (m + 1) + 1) ^ 2 :=
    calc n = k * 2 ^ (m + 1) + 1 := hn
      _ ≤ 2 ^ (m + 1) * 2 ^ (m + 1) + 1 := by gcongr
      _ < (2 ^ (m + 1) + 1) ^ 2 := by ring_nf; omega
  have := Nat.pow_le_pow_left hle 2
  omega

/-- Three is no square modulo the prime. -/
theorem three_pow_eq_neg_one : (3 : ZMod prime) ^ ((2 ^ 59 + 17) * 2 ^ 191) = -1 := by
  have hp : prime =
      3618502788666131213697322783095070105623107215331596699973092056135872020481 := by decide
  rw [hp]
  norm_num only
  reduce_mod_char

theorem prime_prime : prime.Prime :=
  prime_of_pow_eq_neg_one (k := 2 ^ 59 + 17) (m := 191) (by decide) (by decide) (by decide)
    three_pow_eq_neg_one

instance : Fact prime.Prime := ⟨prime_prime⟩

end FieldWords
