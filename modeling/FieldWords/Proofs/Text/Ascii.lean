import FieldWords.Proofs.Bytes

/-!
# ASCII text

A byte below `0x80` is a character of its own, so ASCII text and its bytes are the same list read
in two ways (`encodeChars_map_charOf`, `eq_map_charOf`). Zeros in front of any text are zeros in
front of its bytes (`encode_withoutZeros`).
-/

namespace FieldWords.Utf8

/-- Bytes each of which is a character of its own. -/
def IsAscii (bs : List UInt8) : Prop := ∀ b ∈ bs, b < 0x80

/-- The character with the code of a byte. -/
def charOf (b : UInt8) : Char := Char.ofNat b.toNat

theorem toNat_charOf (b : UInt8) : (charOf b).toNat = b.toNat := by
  have hb : b.toNat < 256 := b.toNat_lt
  rw [charOf, Char.ofNat, dif_pos (Or.inl (by omega))]
  rfl

theorem charOf_inj {b c : UInt8} : charOf b = charOf c ↔ b = c := by
  constructor
  · intro h
    rw [← UInt8.toNat_inj, ← toNat_charOf, h, toNat_charOf]
  · rintro rfl
    rfl

theorem utf8EncodeChar_charOf {b : UInt8} (h : b < 0x80) :
    String.utf8EncodeChar (charOf b) = [b] := by
  have hb : b.toNat < 0x80 := h
  have hle : b.toNat ≤ 0x7F := by omega
  simp [String.utf8EncodeChar, toNat_charOf, hle]

theorem encodeChars_map_charOf {bs : List UInt8} (h : IsAscii bs) :
    encodeChars (bs.map charOf) = bs := by
  induction bs with
  | nil => rfl
  | cons b bs ih =>
    obtain ⟨hb, hbs⟩ := List.forall_mem_cons.mp h
    rw [List.map_cons, encodeChars_cons, utf8EncodeChar_charOf hb, ih hbs, List.singleton_append]

/-- Text whose bytes are ASCII has the characters of these bytes. -/
theorem eq_map_charOf {cs : List Char} (h : IsAscii (encodeChars cs)) :
    cs = (encodeChars cs).map charOf := by
  conv_lhs => rw [← decodeFrom_encodeChars_self cs, ← encodeChars_map_charOf h]
  rw [decodeFrom_encodeChars_self]

/-- A text without the zeros in front. -/
def withoutZeros (s : String) : String := String.ofList (s.toList.dropWhile (· == '\x00'))

theorem encode_withoutZeros (s : String) : encode (withoutZeros s) = Bytes.trim (encode s) := by
  rw [encode, withoutZeros, String.toList_ofList, encode]
  generalize s.toList = cs
  induction cs with
  | nil => rfl
  | cons c cs ih =>
    by_cases hc : c = '\x00'
    · subst hc
      exact ih
    · have hhead : (encodeChars (c :: cs)).head? ≠ some 0 := by
        have h := head?_encode_eq_zero_iff (String.ofList (c :: cs))
        rw [encode, String.toList_ofList] at h
        rw [ne_eq, h, List.head?_cons, Option.some.injEq]
        exact hc
      rw [Bytes.trim_eq_self_iff.mpr hhead, List.dropWhile_cons_of_neg (by simpa using hc)]

end FieldWords.Utf8
