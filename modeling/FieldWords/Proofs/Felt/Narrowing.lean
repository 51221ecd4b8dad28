import Mathlib.Tactic.TFAE
import FieldWords.Proofs.U256.Arithmetic
import FieldWords.Proofs.U256.Layout

/-!
# Elements that fit 128 bits

An element is small if its four words have at most 128 bits, and then its two low words are its
integer. The bits of words are counted from the highest word that is not zero, and are at most `n`
exactly if the number of the words is below `2 ^ n` (`Words.bitLength_le_iff`). So the count of
bits, the two low words, the high limb of the 256-bit integer and the order of representatives all
have the same threshold (`isSmall_iff`, `toNative_eq`, `high_toU256_eq_zero_iff`), and what lies
below it comes back from 128 bits (`toU128_ofU128`).
-/

namespace FieldWords

/-! ### Bits of words -/

namespace U256.Words

/-- A word that is not zero has its highest bit where its leading zeros end, and what stands below
the word does not matter for it. -/
theorem mul_two_pow_add_lt_iff {x : BitVec 64} {m low n : ℕ} (hx : x ≠ 0#64) (hlow : low < 2 ^ m) :
    x.toNat * 2 ^ m + low < 2 ^ n ↔ m + 64 - x.clz.toNat ≤ n := by
  have hclz : x.clz.toNat < 64 := BitVec.lt_def.mp (BitVec.clz_lt_iff_ne_zero.mpr hx)
  have hlt : x.toNat < 2 ^ (64 - x.clz.toNat) := BitVec.toNat_lt_two_pow_sub_clz
  have hle : 2 ^ (63 - x.clz.toNat) ≤ x.toNat :=
    BitVec.two_pow_sub_clz_le_toNat_of_ne_zero (by decide) hx
  constructor
  · intro h
    have hpow : 2 ^ (63 - x.clz.toNat + m) < 2 ^ n :=
      calc 2 ^ (63 - x.clz.toNat + m) = 2 ^ (63 - x.clz.toNat) * 2 ^ m := pow_add _ _ _
        _ ≤ x.toNat * 2 ^ m := Nat.mul_le_mul_right _ hle
        _ ≤ x.toNat * 2 ^ m + low := Nat.le_add_right _ _
        _ < 2 ^ n := h
    have hlt := (Nat.pow_lt_pow_iff_right (by decide)).mp hpow
    omega
  · intro h
    calc x.toNat * 2 ^ m + low < (x.toNat + 1) * 2 ^ m := by rw [Nat.add_mul, Nat.one_mul]; omega
      _ ≤ 2 ^ (64 - x.clz.toNat) * 2 ^ m := Nat.mul_le_mul_right _ hlt
      _ = 2 ^ (64 - x.clz.toNat + m) := (pow_add _ _ _).symm
      _ ≤ 2 ^ n := Nat.pow_le_pow_right (by decide) (by omega)

theorem toNat_lt_two_pow_iff {x : BitVec 64} {n : ℕ} :
    x.toNat < 2 ^ n ↔ 64 - x.clz.toNat ≤ n := by
  by_cases hx : x = 0#64
  · have hclz : x.clz.toNat = 64 := by rw [BitVec.clz_eq_iff_eq_zero.mpr hx]; rfl
    rw [hclz, hx]
    exact iff_of_true (Nat.two_pow_pos n) (Nat.zero_le n)
  · simpa using mul_two_pow_add_lt_iff (m := 0) (n := n) hx Nat.one_pos

/-- Counting from the highest word that is not zero is counting the bits of the number. -/
theorem bitLength_le_iff (w : Words) (n : ℕ) : w.bitLength ≤ n ↔ w.toNat < 2 ^ n := by
  have hw0 : w.w0.toNat < 2 ^ 64 := w.w0.isLt
  have hw1 : w.w1.toNat < 2 ^ 64 := w.w1.isLt
  have hw2 : w.w2.toNat < 2 ^ 64 := w.w2.isLt
  have hlow1 : w.w0.toNat + w.w1.toNat * 2 ^ 64 < 2 ^ 128 := by omega
  have hlow2 : w.w0.toNat + w.w1.toNat * 2 ^ 64 + w.w2.toNat * 2 ^ 128 < 2 ^ 192 := by omega
  -- the words above the first that is not zero drop out of the number
  by_cases h3 : w.w3 = 0#64
  · by_cases h2 : w.w2 = 0#64
    · by_cases h1 : w.w1 = 0#64
      · have hnat : w.toNat = w.w0.toNat := by simp [toNat, h1, h2, h3]
        rw [hnat, toNat_lt_two_pow_iff]
        simp [bitLength, h1, h2, h3]
      · have hnat : w.toNat = w.w1.toNat * 2 ^ 64 + w.w0.toNat := by
          simp [toNat, h2, h3, Nat.add_comm]
        rw [hnat, mul_two_pow_add_lt_iff h1 hw0]
        simp [bitLength, h1, h2, h3]
    · have hnat : w.toNat = w.w2.toNat * 2 ^ 128 + (w.w0.toNat + w.w1.toNat * 2 ^ 64) := by
        simp [toNat, h3, Nat.add_comm]
      rw [hnat, mul_two_pow_add_lt_iff h2 hlow1]
      simp [bitLength, h2, h3]
  · have hnat : w.toNat =
        w.w3.toNat * 2 ^ 192 + (w.w0.toNat + w.w1.toNat * 2 ^ 64 + w.w2.toNat * 2 ^ 128) := by
      rw [toNat, Nat.add_comm]
    rw [hnat, mul_two_pow_add_lt_iff h3 hlow2]
    simp [bitLength, h3]

/-- The two low words are what is left of the number in 128 bits. -/
theorem toNat_low128 (w : Words) : w.low128.toNat = w.toNat % 2 ^ 128 := by
  have h0 : w.w0.toNat < 2 ^ 64 := w.w0.isLt
  have h1 : w.w1.toNat < 2 ^ 64 := w.w1.isLt
  rw [low128, BitVec.toNat_add, BitVec.toNat_shiftLeft, BitVec.toNat_setWidth_of_le (by decide),
    BitVec.toNat_setWidth_of_le (by decide), Nat.shiftLeft_eq, toNat]
  omega

end U256.Words

/-! ### Small elements -/

namespace Felt

theorem toNat_toWords (a : Felt) : a.toWords.toNat = a.val := by
  rw [← toNat_toU256, toU256, U256.toNat_ofWords]

/-- An element is small exactly if it is below `2 ^ 128`. -/
theorem isSmall_iff {a : Felt} : a.isSmall = true ↔ a.val < 2 ^ 128 := by
  rw [isSmall, decide_eq_true_iff, U256.Words.bitLength_le_iff, toNat_toWords, comparisonBits]

/-- The machine word of an element below `2 ^ 128` is its integer; other elements have none. -/
theorem toNative_eq (a : Felt) :
    a.toNative =
      if a.val < 2 ^ 128 then .ok (U128.ofNat a.val).bits else .error (.doesNotFit 128) := by
  have hlow : a.toWords.low128 = (U128.ofNat a.val).bits := by
    apply BitVec.eq_of_toNat_eq
    rw [U256.Words.toNat_low128, toNat_toWords]
    exact (U128.toNat_ofNat a.val).symm
  rw [toNative, hlow]
  simp only [isSmall_iff]

theorem toU128_eq (a : Felt) :
    a.toU128 = if a.val < 2 ^ 128 then .ok (U128.ofNat a.val) else .error (.doesNotFit 128) := by
  rw [toU128, toNative_eq]
  split
  · rfl
  · rfl

theorem toU128_eq_ok_iff {a : Felt} {c : U128} : a.toU128 = .ok c ↔ a.val = c.toNat := by
  rw [toU128_eq, U128.integersBelow.ite_eq_ok_iff]

theorem exists_toNative_iff {a : Felt} : (∃ x, a.toNative = .ok x) ↔ a.val < 2 ^ 128 := by
  rw [toNative_eq, exists_ite_eq_ok_iff]

theorem exists_toU128_iff {a : Felt} : (∃ n, a.toU128 = .ok n) ↔ a.val < 2 ^ 128 := by
  rw [toU128_eq, exists_ite_eq_ok_iff]

/-! ### Limbs -/

/-- The limbs of an element are its quotient and its remainder by `2 ^ 128`. -/
theorem toNat_limbs_toU256 (a : Felt) :
    a.toU256.high.toNat = a.val / 2 ^ 128 ∧ a.toU256.low.toNat = a.val % 2 ^ 128 := by
  have hlow := a.toU256.low.toNat_lt
  have hval := toNat_toU256 a
  rw [U256.toNat] at hval
  omega

theorem high_toU256_eq_zero_iff {a : Felt} : a.toU256.high = U128.zero ↔ a.val < 2 ^ 128 := by
  rw [← U128.toNat_eq_zero_iff, (toNat_limbs_toU256 a).1]
  exact Nat.div_eq_zero_iff_lt (by decide)

/-! ### Integers as elements -/

/-- The words of an integer's element: the two words of the integer, and no more. -/
theorem toWords_ofU128 (n : U128) :
    (ofU128 n).toWords = ⟨n.bits.setWidth 64, (n.bits >>> 64).setWidth 64, 0, 0⟩ := by
  apply U256.Words.toNat_injective
  have hn : n.bits.toNat < 2 ^ 128 := n.bits.isLt
  rw [toNat_toWords, val_ofU128]
  simp only [U256.Words.toNat, BitVec.toNat_setWidth, BitVec.toNat_ushiftRight,
    Nat.shiftRight_eq_div_pow, BitVec.ofNat_eq_ofNat, BitVec.toNat_ofNat, U128.toNat]
  omega

theorem toU256_ofU128 (n : U128) : (ofU128 n).toU256 = U256.ofU128 n := by
  apply U256.toNat_injective
  rw [toNat_toU256, val_ofU128, U256.toNat_ofU128]

theorem toU128_ofU128 (n : U128) : (ofU128 n).toU128 = .ok n := toU128_eq_ok_iff.mpr rfl

/-- **Small elements are the 128-bit integers.** Of an element these say the same: its words have at
most 128 bits; it has a machine word; it has a 128-bit integer; the high limb of its 256-bit integer
is zero; its representative is below `2 ^ 128`. Then the machine word, the 128-bit integer and the
low limb are the representative, and the element comes back from each of the first two. If not, both
conversions are refused for 128 bits. A 128-bit integer is the same 256-bit integer directly and by
way of its element, which holds the two words of the integer and no more; and it comes back from
that element. -/
theorem conversions_meet_at_128_bits :
    (∀ a : Felt,
      [a.isSmall = true, ∃ x, a.toNative = .ok x, ∃ n, a.toU128 = .ok n,
        a.toU256.high = U128.zero, a.val < 2 ^ 128].TFAE) ∧
    (∀ a : Felt, a.val < 2 ^ 128 → ∃ x n, a.toNative = .ok x ∧ a.toU128 = .ok n ∧
      x.toNat = a.val ∧ n.toNat = a.val ∧ a.toU256.low.toNat = a.val ∧
      ofU128 (U128.ofBitVec x) = a ∧ ofU128 n = a) ∧
    (∀ a : Felt, ¬ a.val < 2 ^ 128 →
      a.toNative = .error (.doesNotFit 128) ∧ a.toU128 = .error (.doesNotFit 128)) ∧
    (∀ n : U128, (ofU128 n).toU256 = U256.ofU128 n ∧ (ofU128 n).toU128 = .ok n ∧
      (ofU128 n).toWords = ⟨n.bits.setWidth 64, (n.bits >>> 64).setWidth 64, 0, 0⟩) := by
  refine ⟨fun a => ?_, fun a h => ?_, fun a h => ?_, fun n => ?_⟩
  · tfae_have 1 ↔ 5 := isSmall_iff
    tfae_have 2 ↔ 5 := exists_toNative_iff
    tfae_have 3 ↔ 5 := exists_toU128_iff
    tfae_have 4 ↔ 5 := high_toU256_eq_zero_iff
    tfae_finish
  · have hn : (U128.ofNat a.val).toNat = a.val := U128.toNat_ofNat_of_lt h
    have hlow : a.toU256.low.toNat = a.val := by
      rw [(toNat_limbs_toU256 a).2, Nat.mod_eq_of_lt h]
    have hback : ofU128 (U128.ofNat a.val) = a := val_injective hn
    have hbits : U128.ofBitVec (U128.ofNat a.val).bits = U128.ofNat a.val :=
      U128.toNat_injective (U128.toNat_ofBitVec _ (by decide))
    refine ⟨(U128.ofNat a.val).bits, U128.ofNat a.val, ?_, ?_, hn, hn, hlow, ?_, hback⟩
    · rw [toNative_eq, if_pos h]
    · rw [toU128_eq, if_pos h]
    · rw [hbits, hback]
  · rw [toNative_eq, toU128_eq, if_neg h, if_neg h]
    exact ⟨rfl, rfl⟩
  · exact ⟨toU256_ofU128 n, toU128_ofU128 n, toWords_ofU128 n⟩

/-- The greatest integer of 128 bits and the element after it lie on both sides. -/
theorem conversions_meet_at_128_bits_max_and_next :
    let last := ofU128 U128.max
    let next := last + one
    last.val < 2 ^ 128 ∧ last.isSmall = true ∧ last.toU128 = .ok U128.max ∧
      ¬ next.val < 2 ^ 128 ∧ next.isSmall = false ∧
      next.toNative = .error (.doesNotFit 128) ∧ next.toU128 = .error (.doesNotFit 128) ∧
      next.toU256 = ⟨U128.one, U128.zero⟩ := by
  intro last next
  have hlast : last.val < 2 ^ 128 := U128.max.toNat_lt
  have hnext : next.val = 2 ^ 128 := by decide +kernel
  have hlarge : ¬ next.val < 2 ^ 128 := hnext.not_lt
  obtain ⟨hsame, hfits, hrefused, hback⟩ := conversions_meet_at_128_bits
  refine ⟨hlast, ((hsame last).out 0 4).mpr hlast, (hback U128.max).2.1, hlarge, ?_,
    (hrefused next hlarge).1, (hrefused next hlarge).2, ?_⟩
  · exact Bool.eq_false_iff.mpr (mt ((hsame next).out 0 4).mp hlarge)
  · apply U256.toNat_injective
    rw [toNat_toU256, hnext]
    rfl

end Felt

end FieldWords
