import Mathlib.Algebra.BigOperators.Fin
import FieldWords.Proofs.U256.Encoding

/-!
# One integer in three layouts

Two limbs, 32 bytes with the most significant first, and four words with the least significant first
are the same integer. Bytes and words are its digits in base 256 and `2 ^ 64`
(`reverse_map_toBytes`, `map_toWords`), and there is one integer for each of them: reading undoes
writing (`ofBytes_toBytes`, `ofWords_toWords`), and writing undoes reading (`toBytes_ofBytes`,
`toWords_ofWords`).
-/

namespace FieldWords.U256

/-! ### Bytes -/

/-- The bytes of an integer, the last one first, are its 32 digits in base 256. -/
theorem reverse_map_toBytes (x : U256) :
    (x.toBytes.map UInt8.toNat).reverse = Nat.digitsAppend 256 32 x.toNat := by
  have hlen : (x.toBytes.map UInt8.toNat).reverse.length = 32 := by simp
  have hlt : ∀ d ∈ (x.toBytes.map UInt8.toNat).reverse, d < 256 := by
    intro d hd
    obtain ⟨b, -, rfl⟩ := List.mem_map.mp (List.mem_reverse.mp hd)
    exact b.toNat_lt
  have hvalue : Nat.ofDigits 256 (x.toBytes.map UInt8.toNat).reverse = x.toNat := by
    rw [← value_toBytes, Bytes.value_eq_bigEndian, Bytes.bigEndian]
  rw [← hvalue]
  exact ((Nat.setInvOn_digitsAppend_ofDigits (by decide) 32).1 ⟨hlen, hlt⟩).symm

@[simp] theorem ofBytes_toBytes (x : U256) : ofBytes x.toBytes = x := by
  apply toNat_injective
  rw [toNat_ofBytes (length_toBytes x), value_toBytes]

theorem toBytes_ofBytes {bs : List UInt8} (h : bs.length = 32) : (ofBytes bs).toBytes = bs := by
  apply Bytes.value_injective
  · rw [length_toBytes, h]
  · rw [value_toBytes, toNat_ofBytes h]

/-! ### Words -/

namespace Words

theorem toNat_eq_sum (w : Words) :
    w.toNat = ∑ i : Fin 4, (w.toList.get i).toNat * 2 ^ (64 * i.val) := by
  simp [toNat, toList, Fin.sum_univ_four]

theorem toNat_eq_ofDigits (w : Words) :
    w.toNat = Nat.ofDigits (2 ^ 64) (w.toList.map BitVec.toNat) := by
  simp only [toNat, toList, List.map_cons, List.map_nil, Nat.ofDigits_cons, Nat.ofDigits_nil]
  ring

theorem lt_of_mem_map_toNat {w : Words} : ∀ d ∈ w.toList.map BitVec.toNat, d < 2 ^ 64 := by
  intro d hd
  obtain ⟨x, -, rfl⟩ := List.mem_map.mp hd
  exact x.isLt

theorem toList_injective : Function.Injective toList := by
  rintro ⟨v0, v1, v2, v3⟩ ⟨w0, w1, w2, w3⟩ h
  cases h
  rfl

/-- Each number has one choice of words only. -/
theorem toNat_injective : Function.Injective toNat := by
  intro v w h
  rw [toNat_eq_ofDigits, toNat_eq_ofDigits] at h
  have hdigits : v.toList.map BitVec.toNat = w.toList.map BitVec.toNat :=
    Nat.ofDigits_inj_of_len_eq (by decide) rfl lt_of_mem_map_toNat lt_of_mem_map_toNat h
  apply toList_injective
  exact List.map_injective_iff.mpr (fun _ _ => BitVec.eq_of_toNat_eq) hdigits

end Words

/-- The words of an integer are its four digits in base `2 ^ 64`. -/
theorem map_toWords (x : U256) :
    x.toWords.toList.map BitVec.toNat = Nat.digitsAppend (2 ^ 64) 4 x.toNat := by
  rw [← toNat_toWords, Words.toNat_eq_ofDigits]
  exact ((Nat.setInvOn_digitsAppend_ofDigits (by decide) 4).1
    ⟨rfl, Words.lt_of_mem_map_toNat⟩).symm

@[simp] theorem ofWords_toWords (x : U256) : ofWords x.toWords = x := by
  apply toNat_injective
  rw [toNat_ofWords, toNat_toWords]

@[simp] theorem toWords_ofWords (w : Words) : (ofWords w).toWords = w := by
  apply Words.toNat_injective
  rw [toNat_toWords, toNat_ofWords]

/-! ### All layouts -/

/-- **Every layout is the same integer.** The bytes of an integer are its 32 digits in base 256, the
last byte being the lowest digit; its words are its four digits in base `2 ^ 64`, the first word
being the lowest, and add up to the integer at their places. Each integer comes back from its bytes
and from its words, and all 32 bytes and all four words come back from an integer. An element and
the integer that it becomes have the same bytes. -/
theorem layouts_of_one_integer :
    (∀ x : U256,
      x.toNat = x.high.toNat * 2 ^ 128 + x.low.toNat ∧
      (x.toBytes.map UInt8.toNat).reverse = Nat.digitsAppend 256 32 x.toNat ∧
      x.toWords.toList.map BitVec.toNat = Nat.digitsAppend (2 ^ 64) 4 x.toNat ∧
      x.toNat = ∑ i : Fin 4, (x.toWords.toList.get i).toNat * 2 ^ (64 * i.val)) ∧
    (∀ x : U256, ofBytes x.toBytes = x ∧ ofWords x.toWords = x) ∧
    (∀ bs : List UInt8, bs.length = 32 → (ofBytes bs).toBytes = bs) ∧
    (∀ w : Words, (ofWords w).toWords = w) ∧
    (∀ a : Felt, a.toU256.toBytes = a.toBytes) := by
  refine ⟨fun x => ⟨rfl, reverse_map_toBytes x, map_toWords x, ?_⟩,
    fun x => ⟨ofBytes_toBytes x, ofWords_toWords x⟩, fun bs h => toBytes_ofBytes h,
    toWords_ofWords, Felt.toBytes_toU256⟩
  rw [← Words.toNat_eq_sum, toNat_toWords]

/-- With the bytes 1 to 32 every limb and every word is different from the others. -/
theorem layouts_of_one_integer_bytes_in_order :
    let bs := (List.range 32).map fun i => UInt8.ofNat (i + 1)
    let x := ofBytes bs
    bs.length = 32 ∧ x.toBytes = bs ∧
      x.high = U128.ofNat 0x0102030405060708090A0B0C0D0E0F10 ∧
      x.low = U128.ofNat 0x1112131415161718191A1B1C1D1E1F20 ∧
      x.toWords = ⟨0x191A1B1C1D1E1F20, 0x1112131415161718, 0x090A0B0C0D0E0F10, 0x0102030405060708⟩ ∧
      ofWords x.toWords = x := by
  intro bs x
  have hlen : bs.length = 32 := by decide
  obtain ⟨-, hread, hwritten, -⟩ := layouts_of_one_integer
  exact ⟨hlen, hwritten bs hlen, by decide +kernel, by decide +kernel, by decide +kernel,
    (hread x).2⟩

end FieldWords.U256
