import FieldWords.Proofs.Felt.Reading
import FieldWords.Proofs.U256.Encoding
import FieldWords.Rlp

/-!
# Numbers on the wire

A short byte string is read back from the front of its encoding, whatever follows
(`decodeString_encodeString_append`). Field elements and 256-bit integers are numbers whose content
is their significant bytes (`isForm_felt`, `isForm_u256`), and content is read as a number exactly
if it is what that number writes (`IsForm.ofContent_eq_ok_iff`). So every number has one encoding,
which ends where it says (`codecs_canonical`).
-/

namespace FieldWords.Rlp

/-! ### Strings -/

theorem header_of_le {base n : ℕ} (h : n ≤ shortLength) :
    header base n = [UInt8.ofNat (base + n)] := by
  rw [header, if_pos h]

/-- A string is a single small byte that stands for itself, or stands behind its header. -/
theorem encodeString_cases (d : List UInt8) :
    (∃ b, d = [b] ∧ b.toNat < stringBase ∧ encodeString d = [b]) ∨
      (¬ (d.length = 1 ∧ d.all (· < 0x80)) ∧
        encodeString d = header stringBase d.length ++ d) := by
  match d with
  | [] => exact Or.inr ⟨nofun, rfl⟩
  | [b] =>
    by_cases hb : b < 0x80
    · exact Or.inl ⟨b, rfl, hb, by rw [encodeString, if_pos hb]⟩
    · refine Or.inr ⟨by simp [hb], ?_⟩
      rw [encodeString, if_neg hb]
      rfl
  | a :: b :: d =>
    refine Or.inr ⟨by simp, ?_⟩
    rw [encodeString]
    exact nofun

theorem length_encodeString_le {d : List UInt8} (h : d.length ≤ shortLength) :
    (encodeString d).length ≤ d.length + 1 := by
  obtain ⟨b, rfl, -, henc⟩ | ⟨-, henc⟩ := encodeString_cases d
  · rw [henc]
    exact Nat.le_succ _
  · rw [henc, header_of_le h, List.singleton_append, List.length_cons]

/-- A short string is read back, whatever follows its encoding. -/
theorem decodeString_encodeString_append {d : List UInt8} (h : d.length ≤ shortLength)
    (rest : List UInt8) : decodeString (encodeString d ++ rest) = .ok d := by
  obtain ⟨b, rfl, hb, henc⟩ | ⟨hsmall, henc⟩ := encodeString_cases d
  · rw [henc, List.singleton_append, decodeString, if_pos hb]
  · have hle : d.length ≤ 55 := h
    have hbyte : (UInt8.ofNat (stringBase + d.length)).toNat = stringBase + d.length :=
      UInt8.toNat_ofNat_of_lt' (by simp only [stringBase, UInt8.size]; omega)
    have htake : (d ++ rest).take d.length = d := List.take_left
    rw [henc, header_of_le h, List.singleton_append, List.cons_append, decodeString, hbyte,
      if_neg (by omega), if_pos (Nat.add_le_add_left h stringBase)]
    simp only [Nat.add_sub_cancel_left, htake]
    rw [if_neg (by rw [List.length_append]; omega), if_neg hsmall]

/-! ### Content -/

/-- Values of a type are numbers that 32 bytes can write. Their content is the significant bytes;
content with a leading zero is refused as such, and other content if it is too large. -/
structure IsForm {α : Type} [Form α] (number : α → ℕ) (IsLarge : List UInt8 → Prop) : Prop where
  number_lt (a : α) : number a < 256 ^ 32
  toContent_eq (a : α) : Form.toContent a = Bytes.minimal 32 (number a)
  ofContent_of_zero {d : List UInt8} : d.head? = some 0 →
    (Form.ofContent d : Except Error α) = .error .notMinimal
  ofContent_of_large {d : List UInt8} : d.head? ≠ some 0 → IsLarge d →
    (Form.ofContent d : Except Error α) = .error .tooLarge
  ofContent_of_not_large {d : List UInt8} : d.head? ≠ some 0 → ¬ IsLarge d →
    d.length ≤ 32 ∧ ∃ a : α, Form.ofContent d = .ok a ∧ number a = Bytes.value d
  not_large {d : List UInt8} (a : α) : d.length ≤ 32 → Bytes.value d = number a → ¬ IsLarge d
  number_injective : Function.Injective number

theorem isForm_felt :
    IsForm Felt.val fun d => 32 < d.length ∨ prime ≤ Bytes.value d where
  number_lt a := a.isLt.trans (by decide)
  toContent_eq a := rfl
  ofContent_of_zero h := if_pos h
  ofContent_of_large {d} h hlarge := by
    have hrefused : ∀ a, Felt.ofSlice d ≠ .ok a := by
      intro a ha
      obtain ⟨hlen, hval⟩ := Felt.ofSlice_eq_ok_iff.mp ha
      have := a.isLt
      omega
    simp only [Form.ofContent, if_neg h]
    cases hd : Felt.ofSlice d with
    | ok a => exact absurd hd (hrefused a)
    | error e => rfl
  ofContent_of_not_large {d} h hsmall := by
    rw [not_or, Nat.not_lt, Nat.not_le] at hsmall
    obtain ⟨hlen, hlt⟩ := hsmall
    have hd : Felt.ofSlice d = .ok ⟨Bytes.value d, hlt⟩ :=
      Felt.ofSlice_eq_ok_iff.mpr ⟨hlen, rfl⟩
    refine ⟨hlen, ⟨Bytes.value d, hlt⟩, ?_, rfl⟩
    simp only [Form.ofContent, if_neg h, hd]
  not_large a hlen hval := by
    have := a.isLt
    omega
  number_injective _ _ := Felt.val_injective

theorem isForm_u256 : IsForm U256.toNat fun d => 32 < d.length where
  number_lt a := a.toNat_lt.trans_eq (by decide)
  toContent_eq a := by rw [Bytes.minimal, ← U256.toBytes_eq]; rfl
  ofContent_of_zero h := if_pos h
  ofContent_of_large h hlarge := (if_neg h).trans (if_pos hlarge)
  ofContent_of_not_large {d} h hsmall :=
    ⟨Nat.le_of_not_lt hsmall, U256.ofShortBytes d, (if_neg h).trans (if_neg hsmall),
      U256.toNat_ofShortBytes (Nat.le_of_not_lt hsmall)⟩
  not_large _ hlen _ := Nat.not_lt_of_le hlen
  number_injective _ _ := U256.toNat_injective

namespace IsForm

variable {α : Type} [Form α] {number : α → ℕ} {IsLarge : List UInt8 → Prop}

theorem eq_toContent_iff (h : IsForm number IsLarge) {d : List UInt8} {a : α} :
    d = Form.toContent a ↔ d.head? ≠ some 0 ∧ d.length ≤ 32 ∧ Bytes.value d = number a := by
  rw [h.toContent_eq, Bytes.eq_minimal_iff (h.number_lt a)]

/-- All that reading content can come to. -/
theorem ofContent_cases (h : IsForm (α := α) number IsLarge) (d : List UInt8) :
    (d.head? = some 0 ∧ (Form.ofContent d : Except Error α) = .error .notMinimal) ∨
    (d.head? ≠ some 0 ∧ IsLarge d ∧ (Form.ofContent d : Except Error α) = .error .tooLarge) ∨
    (d.head? ≠ some 0 ∧ ¬ IsLarge d ∧ d.length ≤ 32 ∧
      ∃ a : α, Form.ofContent d = .ok a ∧ number a = Bytes.value d) := by
  by_cases hhead : d.head? = some 0
  · exact Or.inl ⟨hhead, h.ofContent_of_zero hhead⟩
  · by_cases hlarge : IsLarge d
    · exact Or.inr (Or.inl ⟨hhead, hlarge, h.ofContent_of_large hhead hlarge⟩)
    · exact Or.inr (Or.inr ⟨hhead, hlarge, h.ofContent_of_not_large hhead hlarge⟩)

/-- Content is read as a number exactly if it is what the number writes. -/
theorem ofContent_eq_ok_iff (h : IsForm number IsLarge) {d : List UInt8} {a : α} :
    Form.ofContent d = .ok a ↔ d = Form.toContent a := by
  rw [h.eq_toContent_iff]
  obtain ⟨hhead, hd⟩ | ⟨-, hlarge, hd⟩ | ⟨hhead, -, hlen, b, hd, hval⟩ := h.ofContent_cases d
  · simp [hd, hhead]
  · rw [hd]
    refine iff_of_false (by simp) ?_
    rintro ⟨-, hlen, hval⟩
    exact h.not_large a hlen hval hlarge
  · rw [hd, Except.ok.injEq, and_iff_right hhead, and_iff_right hlen, ← hval,
      h.number_injective.eq_iff]

theorem length_toContent_le (h : IsForm number IsLarge) (a : α) :
    (Form.toContent a).length ≤ 32 :=
  (h.eq_toContent_iff.mp rfl).2.1

theorem decodeString_encode_append (h : IsForm number IsLarge) (a : α) (rest : List UInt8) :
    decodeString (encode a ++ rest) = .ok (Form.toContent a) :=
  decodeString_encodeString_append ((h.length_toContent_le a).trans (by decide)) rest

/-- A number is read back, whatever follows its encoding. -/
theorem decode_encode_append (h : IsForm number IsLarge) (a : α) (rest : List UInt8) :
    decode (encode a ++ rest) = .ok a := by
  rw [decode, h.decodeString_encode_append]
  exact h.ofContent_eq_ok_iff.mpr rfl

end IsForm

/-! ### Codecs -/

/-- Numbers have one encoding each. An encoding is read back, takes at most 33 bytes, and is no
proper beginning of another. Content that the decoder of strings finds is refused for a leading
zero, or else because it is too large, and is otherwise read as the number that writes it. -/
structure IsCanonical (α : Type) [Form α] (IsLarge : List UInt8 → Prop) : Prop where
  decode_encode (a : α) : decode (encode a) = .ok a
  length_encode_le (a : α) : (encode a).length ≤ 33
  eq_of_prefix (a b : α) : encode a <+: encode b → a = b
  decodeString_encode (a : α) : decodeString (encode a) = .ok (Form.toContent a)
  eq_notMinimal_iff (bs d : List UInt8) : decodeString bs = .ok d →
    ((decode bs : Except Error α) = .error .notMinimal ↔ d.head? = some 0)
  eq_tooLarge_iff (bs d : List UInt8) : decodeString bs = .ok d →
    ((decode bs : Except Error α) = .error .tooLarge ↔ d.head? ≠ some 0 ∧ IsLarge d)
  exists_eq_ok (bs d : List UInt8) : decodeString bs = .ok d → d.head? ≠ some 0 → ¬ IsLarge d →
    ∃ a : α, decode bs = .ok a
  eq_ok_iff (bs d : List UInt8) : decodeString bs = .ok d →
    ∀ a : α, decode bs = .ok a ↔ d = Form.toContent a
  existsUnique_content (a : α) : ∃! d, Form.ofContent d = .ok a

theorem decode_of_decodeString {α : Type} [Form α] {bs d : List UInt8}
    (h : decodeString bs = .ok d) : (decode bs : Except Error α) = Form.ofContent d := by
  rw [decode, h]

theorem IsForm.isCanonical {α : Type} [Form α] {number : α → ℕ} {IsLarge : List UInt8 → Prop}
    (h : IsForm number IsLarge) : IsCanonical α IsLarge where
  decode_encode a := by
    have hdec := h.decode_encode_append a []
    rwa [List.append_nil] at hdec
  length_encode_le a := by
    have hlen := h.length_toContent_le a
    have henc := length_encodeString_le (hlen.trans (by decide))
    exact henc.trans (Nat.succ_le_succ hlen)
  eq_of_prefix a b := by
    rintro ⟨rest, hrest⟩
    have ha := h.decode_encode_append a rest
    have hb := h.decode_encode_append b []
    rw [hrest] at ha
    rw [List.append_nil, ha] at hb
    exact Except.ok.inj hb
  decodeString_encode a := by
    have hdec := h.decodeString_encode_append a []
    rwa [List.append_nil] at hdec
  eq_notMinimal_iff bs d hd := by
    rw [decode_of_decodeString hd]
    obtain ⟨hhead, hd⟩ | ⟨hhead, -, hd⟩ | ⟨hhead, -, -, a, hd, -⟩ := h.ofContent_cases d
    · simp [hd, hhead]
    · simp [hd, hhead]
    · simp [hd, hhead]
  eq_tooLarge_iff bs d hd := by
    rw [decode_of_decodeString hd]
    obtain ⟨hhead, hd⟩ | ⟨hhead, hlarge, hd⟩ | ⟨-, hlarge, -, a, hd, -⟩ := h.ofContent_cases d
    · simp [hd, hhead]
    · simp [hd, hhead, hlarge]
    · simp [hd, hlarge]
  exists_eq_ok bs d hd hhead hlarge := by
    obtain ⟨-, a, ha, -⟩ := h.ofContent_of_not_large hhead hlarge
    exact ⟨a, (decode_of_decodeString hd).trans ha⟩
  eq_ok_iff bs d hd a := by
    rw [decode_of_decodeString hd, h.ofContent_eq_ok_iff]
  existsUnique_content a :=
    ⟨Form.toContent a, h.ofContent_eq_ok_iff.mpr rfl, fun _ hd => h.ofContent_eq_ok_iff.mp hd⟩

/-- **Every element and every integer has one encoding.** For elements, content is too large if it
is longer than 32 bytes or writes a number from the prime on; for integers, if it is longer than 32
bytes. -/
theorem codecs_canonical :
    IsCanonical Felt (fun d => 32 < d.length ∨ prime ≤ Bytes.value d) ∧
      IsCanonical U256 (fun d => 32 < d.length) :=
  ⟨isForm_felt.isCanonical, isForm_u256.isCanonical⟩

/-- The bytes of the prime are too large for an element, and are what their integer writes. -/
theorem codecs_canonical_prime :
    let bs := encodeString Felt.primeBytes
    decodeString bs = .ok Felt.primeBytes ∧
      (decode bs : Except Error Felt) = .error .tooLarge ∧
      decode bs = .ok (U256.ofNat prime) := by
  intro bs
  have hbs : decodeString bs = .ok Felt.primeBytes := by decide
  have hlarge : 32 < Felt.primeBytes.length ∨ prime ≤ Bytes.value Felt.primeBytes := by decide
  refine ⟨hbs, ?_, ?_⟩
  · exact (codecs_canonical.1.eq_tooLarge_iff bs _ hbs).mpr ⟨by decide, hlarge⟩
  · exact (codecs_canonical.2.eq_ok_iff bs _ hbs _).mpr (by decide)

end FieldWords.Rlp
