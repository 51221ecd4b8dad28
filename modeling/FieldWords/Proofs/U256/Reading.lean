import FieldWords.Proofs.Felt.Reading
import FieldWords.Proofs.U256.Encoding

/-!
# Numerals of elements and of integers

The same numeral may be read as a field element and as a 256-bit integer. Both readers look at the
significant bytes alone, and refuse more than 32 of them (`ofHex_eq_ok_iff`,
`ofHex_eq_invalidLength_iff`). Where they differ is the prime: from there on there are integers, but
no elements (`ofHex_felt_and_integer_agree`).
-/

namespace FieldWords.U256

theorem ofHex_of_significant {s : String} {bs : List UInt8} (h : Hex.significant s = .ok bs) :
    ofHex s = if 32 < bs.length then .error (.invalidLength bs.length)
      else .ok (ofShortBytes bs) := by
  rw [ofHex, h]

/-- A numeral is invalid exactly if it has no significant bytes. -/
theorem ofHex_eq_invalidHex_iff {s : String} {cause : Hex.Error} :
    ofHex s = .error (.invalidHex cause) ↔ Hex.significant s = .error cause := by
  cases h : Hex.significant s with
  | error e => simp [ofHex, h]
  | ok bs =>
    rw [ofHex_of_significant h]
    split <;> exact iff_of_false nofun nofun

/-- Everything but an invalid numeral is read off the significant bytes. -/
theorem ofHex_eq_iff {s : String} {r : Except Error U256}
    (hr : ∀ cause, r ≠ .error (.invalidHex cause)) :
    ofHex s = r ↔ ∃ bs, Hex.significant s = .ok bs ∧
      (if 32 < bs.length then .error (.invalidLength bs.length) else .ok (ofShortBytes bs)) = r := by
  cases h : Hex.significant s with
  | error cause =>
    rw [ofHex_eq_invalidHex_iff.mpr h]
    exact iff_of_false (hr cause).symm (by simp)
  | ok bs => simp [ofHex_of_significant h]

theorem ofHex_eq_ok_iff {s : String} {x : U256} :
    ofHex s = .ok x ↔
      ∃ bs, Hex.significant s = .ok bs ∧ bs.length ≤ 32 ∧ Bytes.value bs = x.toNat := by
  rw [ofHex_eq_iff (r := .ok x) (by simp)]
  refine exists_congr fun bs => and_congr_right fun _ => ?_
  split
  · next hlen => exact iff_of_false (by simp) fun h => Nat.not_lt_of_le h.1 hlen
  · next hlen =>
    have hle : bs.length ≤ 32 := Nat.le_of_not_lt hlen
    rw [Except.ok.injEq, ← toNat_inj, toNat_ofShortBytes hle, and_iff_right hle]

theorem ofHex_eq_invalidLength_iff {s : String} {n : ℕ} :
    ofHex s = .error (.invalidLength n) ↔
      ∃ bs, Hex.significant s = .ok bs ∧ 32 < bs.length ∧ bs.length = n := by
  rw [ofHex_eq_iff (r := .error (.invalidLength n)) (by simp)]
  refine exists_congr fun bs => and_congr_right fun _ => ?_
  split
  · next hlen => simp [hlen]
  · next hlen => exact iff_of_false (by simp) fun h => hlen h.1

/-- **A numeral says the same to both readers.** What is read as an element is read as the integer of
that element, and what is not canonical is read as an integer from the prime on. A numeral is
invalid for both or for neither, for the same cause and with the same message, and too long for both
or for neither, with the same length. -/
theorem ofHex_felt_and_integer_agree (s : String) :
    (∀ a, Felt.ofHex s = .ok a → ofHex s = .ok a.toU256) ∧
    (Felt.ofHex s = .error .notCanonical → ∃ x, ofHex s = .ok x ∧ prime ≤ x.toNat) ∧
    (∀ cause, Felt.ofHex s = .error (.invalidHex cause) ↔ ofHex s = .error (.invalidHex cause)) ∧
    (∀ cause, (FeltError.invalidHex cause).message = (Error.invalidHex cause).message) ∧
    (∀ n, Felt.ofHex s = .error (.invalidLength n) ↔ ofHex s = .error (.invalidLength n)) := by
  refine ⟨fun a ha => ?_, fun h => ?_, fun cause => ?_, fun cause => rfl, fun n => ?_⟩
  · obtain ⟨bs, hbs, hlen, hval⟩ := Felt.ofHex_eq_ok_iff.mp ha
    exact ofHex_eq_ok_iff.mpr ⟨bs, hbs, hlen, hval.trans (Felt.toNat_toU256 a).symm⟩
  · obtain ⟨bs, hbs, hlen, hle⟩ := Felt.ofHex_eq_notCanonical_iff.mp h
    have hval := toNat_ofShortBytes hlen
    exact ⟨ofShortBytes bs, ofHex_eq_ok_iff.mpr ⟨bs, hbs, hlen, hval.symm⟩, hval ▸ hle⟩
  · rw [Felt.ofHex_eq_invalidHex_iff, ofHex_eq_invalidHex_iff]
  · rw [Felt.ofHex_eq_invalidLength_iff, ofHex_eq_invalidLength_iff]

/-- The greatest element, with zeros in front, is an integer; the next numeral is only an integer. -/
theorem ofHex_felt_and_integer_agree_around_prime :
    let last := "0x0000800000000000011000000000000000000000000000000000000000000000000"
    let next := "800000000000011000000000000000000000000000000000000000000000001"
    Felt.ofHex last = .ok Felt.max ∧ ofHex last = .ok Felt.max.toU256 ∧
      Felt.ofHex next = .error .notCanonical ∧ ∃ x, ofHex next = .ok x ∧ prime ≤ x.toNat := by
  intro last next
  have hlast : Felt.ofHex last = .ok Felt.max := by decide +kernel
  have hnext : Felt.ofHex next = .error .notCanonical := by decide +kernel
  exact ⟨hlast, (ofHex_felt_and_integer_agree last).1 Felt.max hlast, hnext,
    (ofHex_felt_and_integer_agree next).2.1 hnext⟩

end FieldWords.U256
