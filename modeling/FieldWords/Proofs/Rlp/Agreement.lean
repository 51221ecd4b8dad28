import FieldWords.Proofs.Rlp

/-!
# One wire form for elements and integers

An element and its integer have one number and so one encoding (`encode_toU256`). Read back, an
encoding is an element exactly if it is the integer of that element (`decode_eq_ok_toU256_iff`).
What is no integer is no element either, for the same cause (`decode_felt_of_integer_error`), and
what remains, the integers from the prime on, is too large (`decode_felt_of_prime_le`).
-/

namespace FieldWords.Rlp

/-- A number is read exactly if the header leads to what the number writes. -/
theorem IsForm.decode_eq_ok_iff {α : Type} [Form α] {number : α → ℕ} {IsLarge : List UInt8 → Prop}
    (h : IsForm number IsLarge) {bs : List UInt8} {a : α} :
    decode bs = .ok a ↔ decodeString bs = .ok (Form.toContent a) := by
  cases hd : decodeString bs with
  | error e => simp [decode, hd]
  | ok d => rw [decode_of_decodeString hd, h.ofContent_eq_ok_iff, Except.ok.injEq]

/-! ### Writing -/

theorem toContent_toU256 (a : Felt) : Form.toContent a.toU256 = Form.toContent a := by
  rw [isForm_u256.toContent_eq, isForm_felt.toContent_eq, Felt.toNat_toU256]

theorem encode_toU256 (a : Felt) : encode a.toU256 = encode a := by
  rw [encode, encode, toContent_toU256]

/-! ### Reading -/

theorem decode_eq_ok_toU256_iff {bs : List UInt8} {a : Felt} :
    decode bs = .ok a.toU256 ↔ decode bs = .ok a := by
  rw [isForm_u256.decode_eq_ok_iff, isForm_felt.decode_eq_ok_iff, toContent_toU256]

/-- Bytes that are refused as an integer are refused as an element for the same cause. -/
theorem decode_felt_of_integer_error {bs : List UInt8} {e : Error}
    (h : (decode bs : Except Error U256) = .error e) :
    (decode bs : Except Error Felt) = .error e := by
  cases hd : decodeString bs with
  | error c =>
    rw [decode, hd] at h ⊢
    cases h
    rfl
  | ok d =>
    rw [decode_of_decodeString hd] at h ⊢
    rcases isForm_u256.ofContent_cases d with ⟨hhead, hu⟩ | ⟨hhead, hlong, hu⟩ | ⟨-, -, -, x, hu, -⟩
    · rw [hu] at h
      cases h
      exact isForm_felt.ofContent_of_zero hhead
    · rw [hu] at h
      cases h
      exact isForm_felt.ofContent_of_large hhead (Or.inl hlong)
    · rw [hu] at h
      cases h

/-- Integers from the prime on are too large for an element. -/
theorem decode_felt_of_prime_le {bs : List UInt8} {x : U256} (h : decode bs = .ok x)
    (hx : prime ≤ x.toNat) : (decode bs : Except Error Felt) = .error .tooLarge := by
  have hd := isForm_u256.decode_eq_ok_iff.mp h
  obtain ⟨hhead, -, hval⟩ :=
    isForm_u256.eq_toContent_iff.mp (rfl : Form.toContent x = Form.toContent x)
  rw [decode_of_decodeString hd]
  exact isForm_felt.ofContent_of_large hhead (Or.inr (hx.trans_eq hval.symm))

/-- **Elements and integers agree on the wire.** An element has the encoding of its integer, and is
read from exactly the bytes from which that integer is read. Bytes that are no integer are no
element, with the same error, and an integer from the prime on is too large for an element. -/
theorem felt_and_integer_agree_on_wire :
    (∀ a : Felt, encode a = encode a.toU256) ∧
    ∀ bs : List UInt8,
      (∀ a : Felt, decode bs = .ok a ↔ decode bs = .ok a.toU256) ∧
      (∀ e, (decode bs : Except Error U256) = .error e →
        (decode bs : Except Error Felt) = .error e) ∧
      ∀ x : U256, decode bs = .ok x → prime ≤ x.toNat →
        (decode bs : Except Error Felt) = .error .tooLarge := by
  refine ⟨fun a => (encode_toU256 a).symm, fun bs => ⟨fun a => ?_, fun e => ?_, fun x => ?_⟩⟩
  · exact decode_eq_ok_toU256_iff.symm
  · exact decode_felt_of_integer_error
  · exact decode_felt_of_prime_le

/-- A leading zero in front of 32 further bytes is reported before the length, by both decoders; the
bytes of the prime are an integer, but too large for an element; and those before them are both. -/
theorem felt_and_integer_agree_on_wire_around_prime :
    let padded := encodeString (0 :: Felt.primeBytes)
    let first := encode (U256.ofNat prime)
    let last := encode Felt.max.toU256
    (decode padded : Except Error U256) = .error .notMinimal ∧
      (decode padded : Except Error Felt) = .error .notMinimal ∧
      decode first = .ok (U256.ofNat prime) ∧ prime ≤ (U256.ofNat prime).toNat ∧
      (decode first : Except Error Felt) = .error .tooLarge ∧
      decode last = .ok Felt.max.toU256 ∧ decode last = .ok Felt.max := by
  intro padded first last
  have hpadded : (decode padded : Except Error U256) = .error .notMinimal := by decide
  have hfirst : decode first = .ok (U256.ofNat prime) := by decide
  have hlast : decode last = .ok Felt.max.toU256 := by decide
  have hprime : prime ≤ (U256.ofNat prime).toNat := by decide
  obtain ⟨-, hread⟩ := felt_and_integer_agree_on_wire
  refine ⟨hpadded, ?_, hfirst, hprime, ?_, hlast, ?_⟩
  · exact (hread padded).2.1 .notMinimal hpadded
  · exact (hread first).2.2 _ hfirst hprime
  · exact ((hread last).1 Felt.max).mpr hlast

end FieldWords.Rlp
