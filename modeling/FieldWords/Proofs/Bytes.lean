import Mathlib.Data.List.DropRight
import Mathlib.Data.Nat.Digits.Lemmas
import Mathlib.Tactic.Ring
import FieldWords.Bytes
import FieldWords.Text.Utf8

/-!
# Significant bytes, groups and text

The number of a byte string is the one whose base-256 digits its bytes are (`value_eq_bigEndian`).
Leading zeros are exactly what a fixed width adds to a byte string (`ofNat_value_of_length_le`), and
dropping them undoes it (`trim_ofNat_value`). What is left is as long as its number needs
(`length_eq_length_digits`). Groups of one size are recovered from the items they
hold (`groups_flatten`). A zero byte of an encoded text is a character of its own, so leading zeros
may be dropped from encoded text and text is left (`exists_text_trim_append`).
-/

namespace FieldWords.Bytes

theorem toNat_pos {b : UInt8} (h : b ≠ 0) : 0 < b.toNat := by
  rw [Nat.pos_iff_ne_zero]
  exact fun h0 => h (UInt8.toNat_inj.mp h0)

theorem value_lt_of_length_le {bs : List UInt8} {k : ℕ} (h : bs.length ≤ k) :
    value bs < 256 ^ k :=
  Nat.lt_of_lt_of_le (value_lt bs) (Nat.pow_le_pow_right (by decide) h)

/-- The number whose digits in base 256 bytes are, the most significant first. -/
def bigEndian (bs : List UInt8) : ℕ := Nat.ofDigits 256 (bs.map UInt8.toNat).reverse

theorem value_eq_bigEndian (bs : List UInt8) : value bs = bigEndian bs := by
  induction bs with
  | nil => rfl
  | cons b bs ih =>
    rw [value_cons, ih, bigEndian, bigEndian, List.map_cons, Nat.ofDigits_reverse_cons,
      List.length_map]
    ring

/-! ### Leading zeros -/

theorem trim_eq_self_iff {bs : List UInt8} : trim bs = bs ↔ bs.head? ≠ some 0 := by
  cases bs with
  | nil => simp
  | cons b bs =>
    by_cases hb : b = 0
    · subst hb
      have hlen := length_trim_le bs
      constructor
      · intro h
        rw [trim_zero_cons] at h
        rw [h, List.length_cons] at hlen
        omega
      · intro h
        exact (h rfl).elim
    · simp [trim_cons_of_ne hb, hb]

@[simp] theorem trim_trim (bs : List UInt8) : trim (trim bs) = trim bs :=
  List.dropWhile_idempotent _ bs

/-- Only zeros have nothing significant. -/
theorem trim_eq_nil_iff {bs : List UInt8} : trim bs = [] ↔ value bs = 0 := by
  induction bs with
  | nil => simp
  | cons b bs ih =>
    by_cases hb : b = 0
    · subst hb
      simp [ih]
    · have hmul : 0 < b.toNat * 256 ^ bs.length :=
        Nat.mul_pos (toNat_pos hb) (Nat.pow_pos (by decide))
      rw [trim_cons_of_ne hb, value_cons]
      constructor
      · intro h
        cases h
      · intro h
        omega

@[simp] theorem trim_replicate_zero_append (k : Nat) (bs : List UInt8) :
    trim (List.replicate k 0 ++ bs) = trim bs := by
  induction k with
  | zero => rfl
  | succ k ih => rw [List.replicate_succ, List.cons_append, trim_zero_cons, ih]

/-- In more bytes than it needs, a number has zeros in front. -/
theorem ofNat_value_of_length_le {width : Nat} {bs : List UInt8} (h : bs.length ≤ width) :
    ofNat width (value bs) = List.replicate (width - bs.length) 0 ++ bs := by
  apply value_injective
  · simp only [length_ofNat, List.length_append, List.length_replicate]
    omega
  · have hz : ∀ k, value (List.replicate k 0) = 0 := fun k =>
      trim_eq_nil_iff.mp (by simpa using trim_replicate_zero_append k [])
    rw [value_ofNat_of_lt (value_lt_of_length_le h), value_append, hz, Nat.zero_mul, Nat.zero_add]

theorem trim_ofNat_value {width : Nat} {bs : List UInt8} (h : bs.length ≤ width) :
    trim (ofNat width (value bs)) = trim bs := by
  rw [ofNat_value_of_length_le h, trim_replicate_zero_append]

/-- The last digits of a number, without the ones before them. -/
theorem drop_ofNat (k width n : Nat) : (ofNat (k + width) n).drop k = ofNat width n := by
  induction k with
  | zero => simp
  | succ k ih => rw [Nat.succ_add, ofNat, List.drop_succ_cons, ih]

/-- A number below a power of 256 has at most as many significant bytes. -/
theorem length_trim_ofNat_le {k width n : Nat} (h : n < 256 ^ k) (hk : k ≤ width) :
    (trim (ofNat width n)).length ≤ k := by
  have hlen : (ofNat k n).length ≤ width := by rwa [length_ofNat]
  have hn : ofNat width n = ofNat width (value (ofNat k n)) := by rw [value_ofNat_of_lt h]
  rw [hn, trim_ofNat_value hlen]
  calc (trim (ofNat k n)).length ≤ (ofNat k n).length := length_trim_le _
    _ = k := length_ofNat k n

/-- The fewest bytes of a number are the only ones that write it without a leading zero. -/
theorem eq_minimal_iff {width n : ℕ} (hn : n < 256 ^ width) {bs : List UInt8} :
    bs = minimal width n ↔ bs.head? ≠ some 0 ∧ bs.length ≤ width ∧ value bs = n := by
  constructor
  · rintro rfl
    refine ⟨trim_eq_self_iff.mp (trim_trim _), ?_, ?_⟩
    · exact (length_trim_le _).trans_eq (length_ofNat width n)
    · rw [value_minimal, Nat.mod_eq_of_lt hn]
  · rintro ⟨hhead, hlen, rfl⟩
    rw [minimal, trim_ofNat_value hlen, trim_eq_self_iff.mpr hhead]

/-- Without leading zeros, bytes are no more than their number needs. -/
theorem length_le_iff_value_lt {bs : List UInt8} (h : trim bs = bs) (k : ℕ) :
    bs.length ≤ k ↔ value bs < 256 ^ k := by
  constructor
  · exact value_lt_of_length_le
  · intro hlt
    obtain _ | ⟨b, bs⟩ := bs
    · exact Nat.zero_le k
    · have hb : b ≠ 0 := fun hb => trim_eq_self_iff.mp h (congrArg some hb)
      have hle : 256 ^ bs.length ≤ value (b :: bs) := by
        rw [value_cons]
        exact Nat.le_add_right_of_le (Nat.le_mul_of_pos_left _ (toNat_pos hb))
      rw [List.length_cons, Nat.succ_le_iff]
      exact (Nat.pow_lt_pow_iff_right (by decide)).mp (Nat.lt_of_le_of_lt hle hlt)

theorem length_eq_length_digits {bs : List UInt8} (h : trim bs = bs) :
    bs.length = (Nat.digits 256 (value bs)).length :=
  eq_of_forall_ge_iff fun k => by
    rw [length_le_iff_value_lt h, Nat.digits_length_le_iff (by decide)]

/-! ### Groups -/

variable {α : Type} {size : Nat}

/-- Groups of one size are recovered from the items they hold. -/
theorem groups_flatten {gs : List (List α)} (h : ∀ g ∈ gs, g.length = size) :
    groups size gs.length gs.flatten = gs := by
  induction gs with
  | nil => rfl
  | cons g gs ih =>
    obtain ⟨hg, hgs⟩ := List.forall_mem_cons.mp h
    rw [List.length_cons, List.flatten_cons, groups, List.take_left' hg, List.drop_left' hg, ih hgs]

theorem length_of_mem_groups {count : Nat} {xs : List α} (h : xs.length = count * size) :
    ∀ g ∈ groups size count xs, g.length = size := by
  induction count generalizing xs with
  | zero => simp [groups]
  | succ count ih =>
    rw [Nat.succ_mul] at h
    rw [groups, List.forall_mem_cons]
    exact ⟨by rw [List.length_take]; omega, ih (by rw [List.length_drop]; omega)⟩

end FieldWords.Bytes

namespace FieldWords.Utf8

theorem encode_append (s t : String) : encode (s ++ t) = encode s ++ encode t := by
  simp only [encode, String.toList_append, encodeChars_append]

theorem encode_eq_nil_iff {s : String} : encode s = [] ↔ s = "" :=
  ⟨fun h => encode_injective h, fun h => h ▸ rfl⟩

/-! ### Zero bytes of text -/

theorem decodeFrom_encodeChars_self (cs : List Char) :
    decodeFrom .between (encodeChars cs) = cs := by
  have h := decodeFrom_encodeChars cs []
  rwa [List.append_nil, decodeFrom, State.flush, List.append_nil] at h

/-- A zero byte in front of encoded text is its first character. -/
theorem exists_of_encodeChars_eq_zero_cons {cs : List Char} {bs : List UInt8}
    (h : encodeChars cs = 0 :: bs) : ∃ rest, cs = '\x00' :: rest ∧ encodeChars rest = bs := by
  have hcs : cs = '\x00' :: decodeFrom .between bs := by
    rw [← decodeFrom_encodeChars_self cs, h]
    rfl
  refine ⟨decodeFrom .between bs, hcs, ?_⟩
  rw [hcs, encodeChars_cons] at h
  exact List.cons.inj h |>.2

/-- Text that begins with a zero byte is text that begins with the character zero. -/
theorem head?_encode_eq_zero_iff (s : String) :
    (encode s).head? = some 0 ↔ s.toList.head? = some '\x00' := by
  constructor
  · intro h
    obtain ⟨bs, hbs⟩ := List.head?_eq_some_iff.mp h
    obtain ⟨rest, hrest, -⟩ := exists_of_encodeChars_eq_zero_cons hbs
    rw [hrest, List.head?_cons]
  · intro h
    obtain ⟨rest, hrest⟩ := List.head?_eq_some_iff.mp h
    rw [encode, hrest]
    rfl

/-- Leading zeros may be dropped from the front part of encoded text. -/
theorem exists_text_trim_append {s : String} {front rest : List UInt8}
    (h : encode s = front ++ rest) : ∃ t : String, encode t = Bytes.trim front ++ rest := by
  induction front generalizing s with
  | nil => exact ⟨s, h⟩
  | cons b front ih =>
    by_cases hb : b = 0
    · subst hb
      obtain ⟨cs, -, hcs⟩ := exists_of_encodeChars_eq_zero_cons h
      exact ih (s := String.ofList cs) (by rwa [encode, String.toList_ofList])
    · exact ⟨s, by rw [Bytes.trim_cons_of_ne hb, h]⟩

end FieldWords.Utf8
