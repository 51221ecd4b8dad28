import Mathlib.Tactic.Ring
import FieldWords.Proofs.Bytes
import FieldWords.Text.Hex

/-!
# Written numerals

Behind the zeros in front, the digit pairs of bytes are the digits of their number in base 16, so a
numeral without leading zeros spells just these (`short_eq`). Reading it puts back the one zero that
the first pair may have lost, and with it the significant bytes (`significant_short`); a numeral of
whole digit pairs has them as they were written (`significant_of_unprefixed`).
-/

namespace FieldWords.Hex

/-! ### Digits of bytes -/

/-- Characters that are the digits of a number in base 16, perhaps with zeros in front. -/
def Spells (cs : List Char) (n : ℕ) : Prop :=
  ∃ vs : List ℕ, cs = vs.map Nat.digitChar ∧ (∀ v ∈ vs, v < 16) ∧ Nat.ofDigits 16 vs.reverse = n

theorem spells_toDigits (n : ℕ) : Spells (Nat.toDigits 16 n) n := by
  induction n using Nat.strongRecOn with
  | ind n ih =>
    rw [Nat.toDigits_eq_if (by decide)]
    split
    · next hlt => exact ⟨[n], rfl, by simpa using hlt, by simp⟩
    · next hge =>
      -- the last digit stands behind those of the rest
      obtain ⟨vs, hvs, hlt, hnumber⟩ := ih (n / 16) (by omega)
      refine ⟨vs ++ [n % 16], by rw [hvs, List.map_append]; rfl, ?_, ?_⟩
      · intro v hv
        rcases List.mem_append.mp hv with hfront | hlast
        · exact hlt v hfront
        · rw [List.mem_singleton.mp hlast]
          omega
      · rw [List.reverse_append, List.reverse_singleton, List.singleton_append, Nat.ofDigits_cons,
          hnumber]
        omega

theorem spells_encode (bs : List UInt8) : Spells (encode bs) (Bytes.value bs) := by
  induction bs with
  | nil => exact ⟨[], rfl, by simp, rfl⟩
  | cons b bs ih =>
    have hb : b.toNat < 256 := b.toNat_lt
    obtain ⟨vs, hvs, hlt, hnumber⟩ := ih
    have hlen : vs.length = 2 * bs.length := by rw [← length_encode, hvs, List.length_map]
    refine ⟨b.toNat / 16 :: b.toNat % 16 :: vs, by rw [encode_cons, hvs]; rfl, ?_, ?_⟩
    · rw [List.forall_mem_cons, List.forall_mem_cons]
      exact ⟨by omega, by omega, hlt⟩
    · rw [Nat.ofDigits_reverse_cons, Nat.ofDigits_reverse_cons, hnumber, List.length_cons, hlen,
        Nat.pow_succ, Nat.pow_mul, Bytes.value_cons]
      conv_rhs => rw [← Nat.div_add_mod b.toNat 16]
      ring

theorem mem_toDigits {n : ℕ} {c : Char} (h : c ∈ Nat.toDigits 16 n) :
    ∃ d < 16, c = Nat.digitChar d := by
  obtain ⟨vs, hvs, hlt, -⟩ := spells_toDigits n
  rw [hvs] at h
  obtain ⟨v, hv, rfl⟩ := List.mem_map.mp h
  exact ⟨v, hlt v hv, rfl⟩

theorem encodeChars_map_digitChar {vs : List ℕ} (h : ∀ v ∈ vs, v < 16) :
    Utf8.encodeChars (vs.map Nat.digitChar) = vs.map digitByte := by
  induction vs with
  | nil => rfl
  | cons v vs ih =>
    obtain ⟨hv, hvs⟩ := List.forall_mem_cons.mp h
    rw [List.map_cons, Utf8.encodeChars_cons, utf8_digitChar hv, ih hvs]
    rfl

theorem length_encodeChars {cs : List Char} {n : ℕ} (h : Spells cs n) :
    (Utf8.encodeChars cs).length = cs.length := by
  obtain ⟨vs, rfl, hlt, -⟩ := h
  rw [encodeChars_map_digitChar hlt, List.length_map, List.length_map]

/-- A byte from 16 on has both of its digits. -/
theorem toDigits_of_ge {b : UInt8} (h : 16 ≤ b.toNat) :
    Nat.toDigits 16 b.toNat = [Nat.digitChar (b.toNat / 16), Nat.digitChar (b.toNat % 16)] := by
  have hlt : b.toNat < 256 := b.toNat_lt
  have happ := Nat.toDigits_append_toDigits (b := 16) (n := b.toNat / 16) (d := b.toNat % 16)
    (by omega) (by omega) (by omega)
  rw [Nat.toDigits_of_lt_base (by omega), Nat.toDigits_of_lt_base (by omega),
    show 16 * (b.toNat / 16) + b.toNat % 16 = b.toNat by omega] at happ
  exact happ.symm

/-- Digits behind those of a number are digits of a greater number. -/
theorem toDigits_append_map {n : ℕ} (hn : 0 < n) {vs : List ℕ} (h : ∀ v ∈ vs, v < 16) :
    Nat.toDigits 16 n ++ vs.map Nat.digitChar =
      Nat.toDigits 16 (n * 16 ^ vs.length + Nat.ofDigits 16 vs.reverse) := by
  induction vs generalizing n with
  | nil => simp
  | cons v vs ih =>
    obtain ⟨hv, hvs⟩ := List.forall_mem_cons.mp h
    have hfirst : Nat.toDigits 16 n ++ [Nat.digitChar v] = Nat.toDigits 16 (16 * n + v) := by
      rw [← Nat.toDigits_of_lt_base hv, Nat.toDigits_append_toDigits (by omega) hn hv]
    have hnumber : (16 * n + v) * 16 ^ vs.length + Nat.ofDigits 16 vs.reverse =
        n * 16 ^ (v :: vs).length + Nat.ofDigits 16 (v :: vs).reverse := by
      rw [Nat.ofDigits_reverse_cons, List.length_cons, pow_succ]
      ring
    calc Nat.toDigits 16 n ++ (v :: vs).map Nat.digitChar
        = Nat.toDigits 16 n ++ [Nat.digitChar v] ++ vs.map Nat.digitChar := by simp
      _ = Nat.toDigits 16 ((16 * n + v) * 16 ^ vs.length + Nat.ofDigits 16 vs.reverse) := by
          rw [hfirst, ih (by omega) hvs]
      _ = _ := by rw [hnumber]

/-- The digit pairs of bytes go on with the digits of a number in front. -/
theorem toDigits_append_encode {n : ℕ} (hn : 0 < n) (bs : List UInt8) :
    Nat.toDigits 16 n ++ encode bs = Nat.toDigits 16 (n * 256 ^ bs.length + Bytes.value bs) := by
  induction bs generalizing n with
  | nil => simp
  | cons b bs ih =>
    have hb : b.toNat < 256 := b.toNat_lt
    have hpair : Nat.toDigits 16 n ++ [b.toNat / 16, b.toNat % 16].map Nat.digitChar =
        Nat.toDigits 16 (n * 256 + b.toNat) := by
      have hnumber : n * 16 ^ 2 + Nat.ofDigits 16 [b.toNat % 16, b.toNat / 16] =
          n * 256 + b.toNat := by
        simp only [Nat.ofDigits_cons, Nat.ofDigits_nil]
        omega
      rw [toDigits_append_map hn (by simp; omega), ← hnumber]
      rfl
    calc Nat.toDigits 16 n ++ encode (b :: bs)
        = Nat.toDigits 16 n ++ [b.toNat / 16, b.toNat % 16].map Nat.digitChar ++ encode bs := by
          simp
      _ = Nat.toDigits 16 (n * 256 + b.toNat) ++ encode bs := by rw [hpair]
      _ = Nat.toDigits 16 (n * 256 ^ (b :: bs).length + Bytes.value (b :: bs)) := by
          rw [ih (by omega), Bytes.value_cons, List.length_cons, Nat.pow_succ, Nat.add_mul,
            Nat.mul_comm (256 ^ bs.length), Nat.mul_assoc, Nat.add_assoc]

/-! ### Numerals without leading zeros -/

@[simp] theorem short_zero_cons (bs : List UInt8) : short (0 :: bs) = short bs := by
  have hzero : Nat.digitChar 0 = '0' := rfl
  simp [short, hzero]

/-- From the first byte on that is not zero, all digits are written. -/
theorem toList_short_cons {b : UInt8} (hb : b ≠ 0) (bs : List UInt8) :
    (short (b :: bs)).toList = '0' :: 'x' :: (Nat.toDigits 16 b.toNat ++ encode bs) := by
  have hpos := Bytes.toNat_pos hb
  have hdrop : (encode (b :: bs)).dropWhile (· == '0') = Nat.toDigits 16 b.toNat ++ encode bs := by
    by_cases hsmall : b.toNat < 16
    · have hdiv : b.toNat / 16 = 0 := by omega
      have hmod : b.toNat % 16 = b.toNat := by omega
      have hne : b.toNat ≠ 0 := hpos.ne'
      rw [encode_cons, hdiv, hmod, Nat.toDigits_of_lt_base hsmall]
      simp [Nat.digitChar_eq_zero, hne]
    · have hne : b.toNat / 16 ≠ 0 := by omega
      rw [encode_cons, toDigits_of_ge (Nat.le_of_not_lt hsmall)]
      simp [Nat.digitChar_eq_zero, hne]
  obtain ⟨d, ds, hds⟩ := List.exists_cons_of_ne_nil (Nat.toDigits_ne_nil (n := b.toNat) (b := 16))
  rw [hds, List.cons_append] at hdrop
  rw [short, hdrop, hds, String.toList_ofList, List.cons_append]

/-- A numeral without leading zeros has the digits of the number that the bytes write. -/
theorem short_eq (bs : List UInt8) :
    short bs = String.ofList ('0' :: 'x' :: Nat.toDigits 16 (Bytes.value bs)) := by
  induction bs with
  | nil => rfl
  | cons b bs ih =>
    by_cases hb : b = 0
    · subst hb
      simp [ih]
    · rw [← String.toList_inj, toList_short_cons hb,
        toDigits_append_encode (Bytes.toNat_pos hb), Bytes.value_cons, String.toList_ofList]

theorem mem_toList_short {c : Char} {bs : List UInt8} (h : c ∈ (short bs).toList) :
    c = 'x' ∨ ∃ d < 16, c = Nat.digitChar d := by
  rw [short_eq, String.toList_ofList, List.mem_cons, List.mem_cons] at h
  rcases h with rfl | rfl | h
  · exact Or.inr ⟨0, by decide, rfl⟩
  · exact Or.inl rfl
  · exact Or.inr (mem_toDigits h)

/-! ### Reading back -/

/-- Whole digit pairs are read as the bytes that they were written for. -/
theorem significant_of_unprefixed {s : String} {bs : List UInt8}
    (h : unprefixed s.toList = encode bs) : significant s = .ok (Bytes.trim bs) := by
  rw [significant, h, padded, if_pos (by rw [length_utf8_encode]; omega), decode_encode]
  rfl

/-- Digit pairs never look like a prefix. -/
theorem unprefixed_encode (bs : List UInt8) : unprefixed (encode bs) = encode bs := by
  have hdigit : ∀ d ∈ List.range 16, Nat.digitChar d ≠ 'x' := by decide
  unfold unprefixed
  split
  · next cs h =>
    obtain _ | ⟨b, bs⟩ := bs
    · cases h
    · rw [encode_cons, List.cons.injEq, List.cons.injEq] at h
      exact absurd h.2.1 (hdigit _ (List.mem_range.mpr (by omega)))
  · rfl

theorem significant_plain (bs : List UInt8) : significant (plain bs) = .ok (Bytes.trim bs) :=
  significant_of_unprefixed (by rw [plain, String.toList_ofList, unprefixed_encode])

theorem significant_wide (bs : List UInt8) : significant (wide bs) = .ok (Bytes.trim bs) :=
  significant_of_unprefixed (by rw [wide, String.toList_ofList, unprefixed])

/-- Digits without the zero of the first pair, made even in number, are all the digits. -/
theorem padded_toDigits_append (b : UInt8) (bs : List UInt8) :
    padded (Utf8.encodeChars (Nat.toDigits 16 b.toNat ++ encode bs)) =
      Utf8.encodeChars (encode (b :: bs)) := by
  by_cases hsmall : b.toNat < 16
  · have hdiv : b.toNat / 16 = 0 := by omega
    have hmod : b.toNat % 16 = b.toNat := by omega
    rw [Nat.toDigits_of_lt_base hsmall, encode_cons, hdiv, hmod, List.singleton_append,
      Utf8.encodeChars_cons, utf8_digitChar hsmall, padded, if_neg]
    · rw [Utf8.encodeChars_cons, Utf8.encodeChars_cons, utf8_digitChar hsmall]
      rfl
    · rw [List.length_append, length_utf8_encode, List.length_singleton]
      omega
  · have hpair : Nat.toDigits 16 b.toNat ++ encode bs = encode (b :: bs) := by
      rw [toDigits_of_ge (Nat.le_of_not_lt hsmall)]
      rfl
    rw [hpair, padded, if_pos]
    rw [length_utf8_encode]
    omega

/-- The significant bytes of a numeral are those that were written. -/
theorem significant_short (bs : List UInt8) : significant (short bs) = .ok (Bytes.trim bs) := by
  induction bs with
  | nil => decide +kernel
  | cons b bs ih =>
    by_cases hb : b = 0
    · subst hb
      rw [short_zero_cons, Bytes.trim_zero_cons, ih]
    · rw [significant, toList_short_cons hb, unprefixed, padded_toDigits_append, decode_encode]
      rfl

end FieldWords.Hex
