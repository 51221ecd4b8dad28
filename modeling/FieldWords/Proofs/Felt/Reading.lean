import Mathlib.Algebra.Order.Ring.Nat
import FieldWords.Felt.Reading
import FieldWords.Proofs.Text.Hex
import FieldWords.Proofs.Text.Numeral
import FieldWords.Proofs.Text.Quoted

/-!
# Which numerals are elements

What a slice of bytes is read as depends on its length and its number (`ofSlice_eq_ok_iff`,
`ofSlice_eq_notCanonical_iff`, `ofSlice_eq_invalidLength_iff`), and a numeral is read as the slice of
its significant bytes. These are as many as the number needs, so of a numeral only the number
matters, once all its bytes are digits (`ofHex_by_first_non_digit_and_number`). The numeral of an
element has the digits of its representative, and reads back (`toHex_eq`, `ofHex_toHex`).
-/

namespace FieldWords.Felt

/-! ### Slices -/

theorem ofSlice_eq_ok_iff {bs : List UInt8} {a : Felt} :
    ofSlice bs = .ok a ↔ bs.length ≤ 32 ∧ Bytes.value bs = a.val := by
  constructor
  · intro h
    unfold ofSlice at h
    split at h
    · cases h
    · next hlen =>
      split at h
      · cases h
        exact ⟨Nat.le_of_not_lt hlen, rfl⟩
      · cases h
  · rintro ⟨hlen, hval⟩
    have hlt : Bytes.value bs < prime := hval ▸ a.isLt
    rw [ofSlice, if_neg (Nat.not_lt_of_le hlen), dif_pos hlt]
    exact congrArg Except.ok (val_injective hval)

theorem ofSlice_eq_notCanonical_iff {bs : List UInt8} :
    ofSlice bs = .error .notCanonical ↔ bs.length ≤ 32 ∧ prime ≤ Bytes.value bs := by
  unfold ofSlice
  split
  · next hlen => exact iff_of_false (by simp) fun h => Nat.not_lt_of_le h.1 hlen
  · next hlen =>
    split
    · next hlt => exact iff_of_false (by simp) fun h => Nat.not_lt_of_le h.2 hlt
    · next hlt => exact iff_of_true rfl ⟨Nat.le_of_not_lt hlen, Nat.le_of_not_lt hlt⟩

theorem ofSlice_eq_invalidLength_iff {bs : List UInt8} {n : ℕ} :
    ofSlice bs = .error (.invalidLength n) ↔ 32 < bs.length ∧ bs.length = n := by
  unfold ofSlice
  split
  · next hlen => simp [hlen]
  · next hlen =>
    split
    · exact iff_of_false (by simp) fun h => hlen h.1
    · exact iff_of_false (by simp) fun h => hlen h.1

/-- Bytes are never refused for what a numeral may be refused for. -/
theorem ofSlice_ne_invalidHex (bs : List UInt8) (cause : Hex.Error) :
    ofSlice bs ≠ .error (.invalidHex cause) := by
  unfold ofSlice
  split
  · simp
  · split
    · simp
    · simp

/-! ### Numerals -/

theorem ofHex_of_significant {s : String} {bs : List UInt8} (h : Hex.significant s = .ok bs) :
    ofHex s = ofSlice bs := by
  rw [ofHex, h]

/-- A numeral is invalid exactly if it has no significant bytes. -/
theorem ofHex_eq_invalidHex_iff {s : String} {cause : Hex.Error} :
    ofHex s = .error (.invalidHex cause) ↔ Hex.significant s = .error cause := by
  cases h : Hex.significant s with
  | error e => simp [ofHex, h]
  | ok bs =>
    rw [ofHex_of_significant h]
    exact iff_of_false (ofSlice_ne_invalidHex bs cause) nofun

/-- Everything but an invalid numeral is read off the significant bytes. -/
theorem ofHex_eq_iff {s : String} {r : Except FeltError Felt}
    (hr : ∀ cause, r ≠ .error (.invalidHex cause)) :
    ofHex s = r ↔ ∃ bs, Hex.significant s = .ok bs ∧ ofSlice bs = r := by
  cases h : Hex.significant s with
  | error cause =>
    rw [ofHex_eq_invalidHex_iff.mpr h]
    exact iff_of_false (hr cause).symm nofun
  | ok bs => simp [ofHex_of_significant h]

theorem ofHex_eq_ok_iff {s : String} {a : Felt} :
    ofHex s = .ok a ↔
      ∃ bs, Hex.significant s = .ok bs ∧ bs.length ≤ 32 ∧ Bytes.value bs = a.val := by
  simp only [ofHex_eq_iff (r := .ok a) nofun, ofSlice_eq_ok_iff]

theorem ofHex_eq_notCanonical_iff {s : String} :
    ofHex s = .error .notCanonical ↔
      ∃ bs, Hex.significant s = .ok bs ∧ bs.length ≤ 32 ∧ prime ≤ Bytes.value bs := by
  simp only [ofHex_eq_iff (r := .error .notCanonical) nofun, ofSlice_eq_notCanonical_iff]

theorem ofHex_eq_invalidLength_iff {s : String} {n : ℕ} :
    ofHex s = .error (.invalidLength n) ↔
      ∃ bs, Hex.significant s = .ok bs ∧ 32 < bs.length ∧ bs.length = n := by
  simp only [ofHex_eq_iff (r := .error (.invalidLength n)) nofun, ofSlice_eq_invalidLength_iff]

/-! ### Written numerals -/

theorem toHex_eq (a : Felt) : a.toHex = String.ofList ('0' :: 'x' :: Nat.toDigits 16 a.val) := by
  rw [toHex, Hex.short_eq, value_toBytes]

/-- The numeral of an element reads back. -/
theorem ofHex_toHex (a : Felt) : ofHex a.toHex = .ok a := by
  refine ofHex_eq_ok_iff.mpr ⟨Bytes.trim a.toBytes, Hex.significant_short a.toBytes, ?_, ?_⟩
  · exact (Bytes.length_trim_le _).trans_eq (length_toBytes a)
  · rw [Bytes.value_trim, value_toBytes]

/-! ### Messages -/

/-- The message about an invalid numeral shows the byte that is no digit, and tells its place. -/
theorem message_invalidHex (b : UInt8) (i : ℕ) :
    (FeltError.invalidHex (.invalidCharacter b i)).message =
      "invalid hex string: Invalid character " ++ Quoted.char (Char.ofNat b.toNat) ++
        " at position " ++ String.ofList (Nat.toDigits 10 i) := by
  have hmessage : (FeltError.invalidHex (.invalidCharacter b i)).message =
      "invalid hex string: " ++ ("Invalid character " ++ Quoted.char (Char.ofNat b.toNat) ++
        " at position " ++ String.ofList (Nat.toDigits 10 i)) := rfl
  have hbegin : "invalid hex string: " ++ "Invalid character " =
      "invalid hex string: Invalid character " := by decide
  rw [hmessage, ← hbegin]
  simp only [String.append_assoc]

theorem invalidHex_of_message_eq {e f : Hex.Error}
    (h : (FeltError.invalidHex e).message = (FeltError.invalidHex f).message) : e = f := by
  have hcause : "invalid hex string: " ++ e.message = "invalid hex string: " ++ f.message := h
  exact Hex.Error.message_injective (String.append_right_inj _ |>.mp hcause)

/-! ### The whole reader -/

/-- **A numeral is read by its first fault or its number.** If a byte behind the prefix is no digit,
the first such byte is reported, with its place after padding. If all are digits, they write a
number: below `P` it is the element read, from `P` on up to 256 bits it is refused as not canonical,
and a larger one for the count of its significant bytes. The message about a first fault shows the
byte and its place, and messages about different faults differ. -/
theorem ofHex_by_first_non_digit_and_number (s : String) :
    (∀ b i, ofHex s = .error (.invalidHex (.invalidCharacter b i)) ↔
      Hex.IsFirstNonDigit (Hex.evenBody s) b i) ∧
    ((∀ d ∈ Hex.body s, Hex.IsDigit d) →
      (∀ h : Hex.number (Hex.body s) < prime, ofHex s = .ok ⟨Hex.number (Hex.body s), h⟩) ∧
      (prime ≤ Hex.number (Hex.body s) → Hex.number (Hex.body s) < 2 ^ 256 →
        ofHex s = .error .notCanonical) ∧
      (2 ^ 256 ≤ Hex.number (Hex.body s) →
        ofHex s = .error (.invalidLength (Nat.digits 256 (Hex.number (Hex.body s))).length))) ∧
    (∀ b i, (FeltError.invalidHex (.invalidCharacter b i)).message =
      "invalid hex string: Invalid character " ++ Quoted.char (Char.ofNat b.toNat) ++
        " at position " ++ String.ofList (Nat.toDigits 10 i)) ∧
    (∀ e f, (FeltError.invalidHex e).message = (FeltError.invalidHex f).message → e = f) := by
  refine ⟨fun b i => ofHex_eq_invalidHex_iff.trans Hex.significant_eq_error_iff, fun hall => ?_,
    message_invalidHex, fun _ _ => invalidHex_of_message_eq⟩
  obtain ⟨bs, hbs, htrim, hval⟩ := Hex.significant_of_forall hall
  have hlen : bs.length ≤ 32 ↔ Hex.number (Hex.body s) < 2 ^ 256 := by
    rw [Bytes.length_le_iff_value_lt htrim, hval, show (256 : ℕ) ^ 32 = 2 ^ 256 by decide]
  rw [ofHex_of_significant hbs]
  refine ⟨fun h => ?_, fun hle hlt => ?_, fun hle => ?_⟩
  · have hlt : Hex.number (Hex.body s) < 2 ^ 256 := h.trans (by decide)
    exact ofSlice_eq_ok_iff.mpr ⟨hlen.mpr hlt, hval⟩
  · exact ofSlice_eq_notCanonical_iff.mpr ⟨hlen.mpr hlt, hval ▸ hle⟩
  · refine ofSlice_eq_invalidLength_iff.mpr ⟨?_, ?_⟩
    · rw [← Nat.not_le, hlen, Nat.not_lt]
      exact hle
    · rw [Bytes.length_eq_length_digits htrim, hval]

/-- In `0x1é` the prefix goes and a zero is put in front, so the first byte of `é` has index 2; the
numeral of the prime itself, behind a zero, is not canonical. -/
theorem ofHex_by_first_non_digit_and_number_accent_and_prime :
    let p := "0x0800000000000011000000000000000000000000000000000000000000000001"
    ofHex "0x1é" = .error (.invalidHex (.invalidCharacter 0xC3 2)) ∧
      (∀ d ∈ Hex.body p, Hex.IsDigit d) ∧ Hex.number (Hex.body p) = prime ∧
      ofHex p = .error .notCanonical := by
  intro p
  have hbytes : Hex.evenBody "0x1é" = [48, 49] ++ 0xC3 :: [0xA9] := by decide +kernel
  have hdigits : ∀ d ∈ Hex.body p, Hex.IsDigit d := by decide +kernel
  have hnumber : Hex.number (Hex.body p) = prime := by decide +kernel
  refine ⟨?_, hdigits, hnumber, ?_⟩
  · exact ((ofHex_by_first_non_digit_and_number "0x1é").1 0xC3 2).mpr
      ⟨[48, 49], [0xA9], hbytes, rfl, by decide +kernel, by decide +kernel⟩
  · exact ((ofHex_by_first_non_digit_and_number p).2.1 hdigits).2.1 hnumber.ge
      (hnumber.trans_lt (by decide))

end FieldWords.Felt
