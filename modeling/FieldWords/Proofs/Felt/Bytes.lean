import FieldWords.Proofs.Felt.Reading

/-!
# Elements read from bytes

There are three ways to read an element from bytes. A slice is taken if it is short enough and its
number is below the prime; 32 bytes are always taken and reduced; and the digits of bytes are read
without the zeros in front. On the bytes of an element all of them give the element
(`ofBytes_toBytes`, `ofSlice_of_toBytes`), and reading digits is reading the slice that is left
(`ofHex_plain`, `ofHex_wide`).
-/

namespace FieldWords.Felt

/-! ### Reduced bytes -/

/-- Where a slice is an element, reducing the bytes gives the same one. -/
theorem ofBytes_of_ofSlice {bs : List UInt8} {a : Felt} (h : ofSlice bs = .ok a) :
    ofBytes bs = a := by
  obtain ⟨-, hval⟩ := ofSlice_eq_ok_iff.mp h
  rw [ofBytes, hval, ofNat_val]

@[simp] theorem ofBytes_toBytes (a : Felt) : ofBytes a.toBytes = a := by
  rw [ofBytes, value_toBytes, ofNat_val]

/-- Bytes come back exactly if nothing had to be taken off their number. -/
theorem toBytes_ofBytes_iff {bs : List UInt8} (hlen : bs.length = 32) :
    (ofBytes bs).toBytes = bs ↔ Bytes.value bs < prime := by
  constructor
  · intro h
    rw [← h, value_toBytes]
    exact (ofBytes bs).isLt
  · intro h
    apply Bytes.value_injective
    · rw [length_toBytes, hlen]
    · rw [value_toBytes, ofBytes, val_ofNat_of_lt h]

/-! ### Slices -/

/-- The bytes of an element, with any number of zeros in front left out. -/
theorem ofSlice_of_toBytes {a : Felt} {k : ℕ} {bs : List UInt8}
    (h : a.toBytes = List.replicate k 0 ++ bs) : ofSlice bs = .ok a := by
  refine ofSlice_eq_ok_iff.mpr ⟨?_, ?_⟩
  · have hlen := congrArg List.length h
    rw [length_toBytes, List.length_append] at hlen
    omega
  · rw [← value_toBytes, h, ← Bytes.value_trim (List.replicate k 0 ++ bs),
      Bytes.trim_replicate_zero_append, Bytes.value_trim]

/-! ### Digits of bytes -/

theorem ofHex_plain (bs : List UInt8) : ofHex (Hex.plain bs) = ofSlice (Bytes.trim bs) :=
  ofHex_of_significant (Hex.significant_plain bs)

theorem ofHex_wide (bs : List UInt8) : ofHex (Hex.wide bs) = ofSlice (Bytes.trim bs) :=
  ofHex_of_significant (Hex.significant_wide bs)

/-- **The readers of bytes agree.** A slice is refused for its length if it has more than 32 bytes,
and otherwise as not canonical if its number is not below the prime; if it is, the slice is the
element with that number. From 32 bytes comes the element of the remainder, the same as from the
slice if that is one, and its bytes are these 32 exactly if their number is below the prime. The
bytes of an element are read as the element in both ways, and as a slice also with zeros in front
left out. The digits of bytes, with a prefix or without, are read as the slice without zeros in
front. -/
theorem byteReaders_agree :
    (∀ bs n, ofSlice bs = .error (.invalidLength n) ↔ 32 < bs.length ∧ bs.length = n) ∧
    (∀ bs : List UInt8, bs.length ≤ 32 →
      (ofSlice bs = .error .notCanonical ↔ prime ≤ Bytes.bigEndian bs) ∧
      ∀ h : Bytes.bigEndian bs < prime, ofSlice bs = .ok ⟨Bytes.bigEndian bs, h⟩) ∧
    (∀ bs : List UInt8, bs.length = 32 →
      (ofBytes bs).val = Bytes.bigEndian bs % prime ∧
      (∀ a, ofSlice bs = .ok a → ofBytes bs = a) ∧
      ((ofBytes bs).toBytes = bs ↔ Bytes.bigEndian bs < prime)) ∧
    (∀ a : Felt, ofBytes a.toBytes = a ∧ ofSlice a.toBytes = .ok a ∧
      ∀ k bs, a.toBytes = List.replicate k 0 ++ bs → ofSlice bs = .ok a) ∧
    (∀ bs, ofHex (Hex.plain bs) = ofSlice (Bytes.trim bs) ∧
      ofHex (Hex.wide bs) = ofSlice (Bytes.trim bs)) := by
  refine ⟨fun bs n => ofSlice_eq_invalidLength_iff, fun bs hlen => ?_, fun bs hlen => ?_,
    fun a => ?_, fun bs => ⟨ofHex_plain bs, ofHex_wide bs⟩⟩
  · rw [ofSlice_eq_notCanonical_iff, and_iff_right hlen, Bytes.value_eq_bigEndian]
    exact ⟨Iff.rfl, fun h => ofSlice_eq_ok_iff.mpr ⟨hlen, Bytes.value_eq_bigEndian bs⟩⟩
  · rw [← Bytes.value_eq_bigEndian]
    exact ⟨rfl, fun a h => ofBytes_of_ofSlice h, toBytes_ofBytes_iff hlen⟩
  · exact ⟨ofBytes_toBytes a, ofSlice_of_toBytes (k := 0) rfl, fun k bs h => ofSlice_of_toBytes h⟩

/-- The greatest number of 32 bytes loses 31 times the prime, and its bytes do not come back; the two
bytes of a small element are read without the 30 zeros in front of them. -/
theorem byteReaders_agree_greatest_and_small :
    let top := List.replicate 32 (0xFF : UInt8)
    let small := ofNat 0xABCD
    top.length = 32 ∧ Bytes.bigEndian top = (ofBytes top).val + 31 * prime ∧
      ofSlice top = .error .notCanonical ∧ (ofBytes top).toBytes ≠ top ∧
      small.toBytes = List.replicate 30 0 ++ [0xAB, 0xCD] ∧ ofSlice [0xAB, 0xCD] = .ok small := by
  intro top small
  have hlen : top.length = 32 := by decide
  have hnumber : Bytes.bigEndian top = 2 ^ 256 - 1 := by decide +kernel
  have hle : prime ≤ Bytes.bigEndian top := hnumber ▸ by decide
  have hsmall : small.toBytes = List.replicate 30 0 ++ [0xAB, 0xCD] := by decide +kernel
  obtain ⟨-, hslice, hreduced, helement, -⟩ := byteReaders_agree
  obtain ⟨hval, -, hback⟩ := hreduced top hlen
  refine ⟨hlen, ?_, (hslice top hlen.le).1.mpr hle, ?_, hsmall,
    (helement small).2.2 30 [0xAB, 0xCD] hsmall⟩
  · rw [hval, hnumber]
    decide
  · rw [ne_eq, hback, Nat.not_lt]
    exact hle

end FieldWords.Felt
