import FieldWords.Proofs.Text.Ascii
import FieldWords.Proofs.Text.Hex
import FieldWords.Proofs.Text.Numeral

/-!
# Normal forms of numerals

Numerals that say the same number may differ in the prefix, in zeros in front and in the case of
their digits. The normal form of a numeral has the prefix, no zeros in front and lower-case digits;
for a numeral of digits it spells the digits of the number (`normalForm_eq`).
-/

namespace FieldWords.Hex

/-- The characters of a numeral behind its prefix, if it has one. -/
def behindPrefix (s : String) : List Char := (s.toList.dropPrefix? ['0', 'x']).getD s.toList

/-- The numeral with some digits, but for the zeros in front of them. -/
def withoutZeros (ds : List Char) : String :=
  if ds.all (· == '0') then "0x0" else String.ofList ('0' :: 'x' :: ds.dropWhile (· == '0'))

/-- A numeral with its prefix, without zeros in front, and in lower case. -/
def normalForm (s : String) : String := withoutZeros ((behindPrefix s).map Char.toLower)

/-! ### Digits as characters -/

theorem lt_of_isDigit {b : UInt8} (h : IsDigit b) : b < 0x80 := by
  have hvalue : digitOfCode? b.toNat = some (digitValue b) := by
    rw [← digit?, digit?_eq, if_pos h]
  rw [UInt8.lt_iff_toNat_lt]
  change b.toNat < 128
  by_contra hb
  rw [digitOfCode?, if_neg (by omega), if_neg (by omega), if_neg (by omega)] at hvalue
  cases hvalue

/-- A digit in lower case is the character of its value. -/
theorem digitChar_digitValue {b : UInt8} (h : IsDigit b) :
    Nat.digitChar (digitValue b) = lowered b := by
  have hplaces : digits.map (fun c => Nat.digitChar (digits.idxOf c)) = digits.map id := rfl
  exact List.map_inj_left.mp hplaces (lowered b) h

/-- Digits behind the prefix, in lower case, are the characters of their values. -/
theorem map_toLower_behindPrefix {s : String} (h : ∀ d ∈ body s, IsDigit d) :
    (behindPrefix s).map Char.toLower = ((body s).map digitValue).map Nat.digitChar := by
  have hascii : Utf8.IsAscii (Utf8.encodeChars (behindPrefix s)) := fun b hb => lt_of_isDigit (h b hb)
  rw [Utf8.eq_map_charOf hascii, List.map_map, List.map_map]
  exact List.map_congr_left fun b hb => (digitChar_digitValue (h b hb)).symm

/-! ### Digits and their number -/

theorem withoutZeros_zero_cons (ds : List Char) : withoutZeros ('0' :: ds) = withoutZeros ds := by
  simp [withoutZeros]

theorem withoutZeros_cons_of_ne {d : Char} (hd : d ≠ '0') (ds : List Char) :
    withoutZeros (d :: ds) = String.ofList ('0' :: 'x' :: d :: ds) := by
  simp [withoutZeros, hd]

/-- Without zeros in front, digits are those of the number that they write. -/
theorem withoutZeros_map_digitChar {vs : List ℕ} (h : ∀ v ∈ vs, v < 16) :
    withoutZeros (vs.map Nat.digitChar) =
      String.ofList ('0' :: 'x' :: Nat.toDigits 16 (Nat.ofDigits 16 vs.reverse)) := by
  induction vs with
  | nil => rfl
  | cons v vs ih =>
    obtain ⟨hv, hvs⟩ := List.forall_mem_cons.mp h
    rw [List.map_cons, Nat.ofDigits_reverse_cons, Nat.add_comm, Nat.mul_comm]
    by_cases hzero : v = 0
    · subst hzero
      rw [Nat.zero_mul, Nat.zero_add, ← ih hvs]
      exact withoutZeros_zero_cons _
    · have hne : Nat.digitChar v ≠ '0' := by simpa [Nat.digitChar_eq_zero] using hzero
      rw [withoutZeros_cons_of_ne hne, ← toDigits_append_map (Nat.pos_of_ne_zero hzero) hvs,
        Nat.toDigits_of_lt_base hv, List.singleton_append]

/-- The normal form of a numeral of digits has the digits of its number. -/
theorem normalForm_eq {s : String} (h : ∀ d ∈ body s, IsDigit d) :
    normalForm s = String.ofList ('0' :: 'x' :: Nat.toDigits 16 (number (body s))) := by
  have hlt : ∀ v ∈ (body s).map digitValue, v < 16 :=
    List.forall_mem_map.mpr fun d hd => digitValue_lt (h d hd)
  rw [normalForm, map_toLower_behindPrefix h, withoutZeros_map_digitChar hlt, number]

/-- Without zeros in front, the digit pairs of bytes are their short numeral. -/
theorem withoutZeros_encode (bs : List UInt8) : withoutZeros (encode bs) = short bs := by
  have hnil : (encode bs).dropWhile (· == '0') = [] ↔ (encode bs).all (· == '0') = true := by
    rw [List.dropWhile_eq_nil_iff, List.all_eq_true]
  by_cases h : (encode bs).all (· == '0') = true
  · rw [withoutZeros, if_pos h, short, hnil.mpr h]
  · obtain ⟨d, ds, hds⟩ := List.exists_cons_of_ne_nil (hnil.not.mpr h)
    rw [withoutZeros, if_neg h, short, hds]

theorem behindPrefix_wide (bs : List UInt8) : behindPrefix (wide bs) = encode bs := by
  rw [behindPrefix, ← unprefixed_eq, wide, String.toList_ofList, unprefixed]

end FieldWords.Hex
