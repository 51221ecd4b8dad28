import FieldWords.Address
import FieldWords.Proofs.Lexicographic
import FieldWords.Proofs.U256.Arithmetic
import FieldWords.Proofs.U256.Layout
import FieldWords.Proofs.U256.Writing

/-!
# One order in every form

Numbers keep their order in whatever form they are written with the most significant part first:
in bytes (`Bytes.lexicographic_eq`), in words (`U256.Words.lexicographic_eq`) and in the text of
their digits, where `0` to `9` have smaller bytes than `a` to `f` (`Hex.Spells.lexicographic_eq`).
Numerals without zeros in front have no common length; of two such the shorter one is smaller
(`Hex.shortlex_toDigits`).
-/

namespace FieldWords

/-! ### Bytes and words -/

namespace Bytes

/-- Bytes are compared from the first one on. -/
def lexicographic : List UInt8 → List UInt8 → Ordering := List.compareLex (compareOn UInt8.toNat)

/-- Byte strings of one length have the order of their numbers. -/
theorem lexicographic_eq {as bs : List UInt8} (h : as.length = bs.length) :
    lexicographic as bs = compare (value as) (value bs) := by
  rw [value_eq_bigEndian, value_eq_bigEndian]
  exact compareLex_compareOn_eq (by decide) UInt8.toNat_lt h

end Bytes

namespace U256.Words

/-- Words are compared from the last one, which is the most significant. -/
def lexicographic (v w : Words) : Ordering :=
  v.toList.reverse.compareLex (compareOn BitVec.toNat) w.toList.reverse

theorem lexicographic_eq (v w : Words) : v.lexicographic w = compare v.toNat w.toNat := by
  have hbase : 1 < 2 ^ 64 := by decide
  have hlen : v.toList.reverse.length = w.toList.reverse.length := rfl
  rw [lexicographic, compareLex_compareOn_eq hbase BitVec.isLt hlen, List.map_reverse,
    List.map_reverse, List.reverse_reverse, List.reverse_reverse, toNat_eq_ofDigits,
    toNat_eq_ofDigits]

end U256.Words

/-! ### Text -/

namespace Utf8

/-- Texts are compared by their bytes, from the first one on. -/
def lexicographic (s t : String) : Ordering := Bytes.lexicographic (encode s) (encode t)

/-- Texts are compared by their lengths first, and those of one length by their bytes. -/
def shortlex (s t : String) : Ordering :=
  (compare (encode s).length (encode t).length).then (lexicographic s t)

end Utf8

namespace Hex

private theorem compare_table : ∀ d ∈ List.range 16, ∀ e ∈ List.range 16,
    compareOn UInt8.toNat (digitByte d) (digitByte e) = compare d e := by
  decide

/-- The bytes of digits have the order of the digits. -/
theorem compare_digitByte {d e : ℕ} (hd : d < 16) (he : e < 16) :
    compareOn UInt8.toNat (digitByte d) (digitByte e) = compare d e :=
  compare_table d (List.mem_range.mpr hd) e (List.mem_range.mpr he)

/-- Equally many digits have the order of their numbers. -/
theorem Spells.lexicographic_eq {cs ds : List Char} {m n : ℕ} (hc : Spells cs m)
    (hd : Spells ds n) (hlen : cs.length = ds.length) :
    Bytes.lexicographic (Utf8.encodeChars cs) (Utf8.encodeChars ds) = compare m n := by
  obtain ⟨vs, rfl, hvs, rfl⟩ := hc
  obtain ⟨ws, rfl, hws, rfl⟩ := hd
  rw [List.length_map, List.length_map] at hlen
  rw [encodeChars_map_digitChar hvs, encodeChars_map_digitChar hws,
    ← compareLex_eq_compare_ofDigits (by decide) hlen hvs hws]
  exact compareLex_map fun v hv w hw => compare_digitByte (hvs v hv) (hws w hw)

theorem lt_of_length_toDigits_lt {m n : ℕ}
    (h : (Nat.toDigits 16 m).length < (Nat.toDigits 16 n).length) : m < n := by
  have hpos : 0 < (Nat.toDigits 16 m).length := Nat.length_toDigits_pos
  have hm : m < 16 ^ (Nat.toDigits 16 m).length :=
    (Nat.length_toDigits_le_iff (by decide) hpos).mp le_rfl
  have hn : 16 ^ (Nat.toDigits 16 m).length ≤ n := by
    rw [← Nat.not_lt, ← Nat.length_toDigits_le_iff (by decide) hpos]
    exact Nat.not_le_of_lt h
  exact hm.trans_le hn

/-- Of two numerals with one prefix the digits decide. -/
theorem lexicographic_prefixed (cs ds : List Char) :
    Utf8.lexicographic (String.ofList ('0' :: 'x' :: cs)) (String.ofList ('0' :: 'x' :: ds)) =
      Bytes.lexicographic (Utf8.encodeChars cs) (Utf8.encodeChars ds) := by
  rw [Utf8.lexicographic, Utf8.encode, Utf8.encode, String.toList_ofList, String.toList_ofList]
  rfl

theorem length_encode_prefixed {cs : List Char} {n : ℕ} (h : Spells cs n) :
    (Utf8.encode (String.ofList ('0' :: 'x' :: cs))).length = cs.length + 2 := by
  rw [Utf8.encode, String.toList_ofList, ← length_encodeChars h]
  rfl

/-- Numerals without zeros in front have the order of their numbers: more digits are more. -/
theorem shortlex_toDigits (m n : ℕ) :
    Utf8.shortlex (String.ofList ('0' :: 'x' :: Nat.toDigits 16 m))
      (String.ofList ('0' :: 'x' :: Nat.toDigits 16 n)) = compare m n := by
  rw [Utf8.shortlex, length_encode_prefixed (spells_toDigits m),
    length_encode_prefixed (spells_toDigits n), lexicographic_prefixed]
  rcases Nat.lt_trichotomy (Nat.toDigits 16 m).length (Nat.toDigits 16 n).length with h | h | h
  · rw [Nat.compare_eq_lt.mpr (Nat.add_lt_add_right h 2),
      Nat.compare_eq_lt.mpr (lt_of_length_toDigits_lt h)]
    rfl
  · rw [h, Nat.compare_eq_eq.mpr rfl, (spells_toDigits m).lexicographic_eq (spells_toDigits n) h]
    rfl
  · rw [Nat.compare_eq_gt.mpr (Nat.add_lt_add_right h 2),
      Nat.compare_eq_gt.mpr (lt_of_length_toDigits_lt h)]
    rfl

end Hex

/-! ### Numbers -/

namespace U256

theorem compare_eq_toBytes (a b : U256) :
    compare a b = Bytes.lexicographic a.toBytes b.toBytes := by
  rw [Bytes.lexicographic_eq (by rw [length_toBytes, length_toBytes]), value_toBytes,
    value_toBytes, compare_eq]

theorem compare_eq_toWords (a b : U256) : compare a b = a.toWords.lexicographic b.toWords := by
  rw [Words.lexicographic_eq, toNat_toWords, toNat_toWords, compare_eq]

theorem compare_eq_toHex (a b : U256) : compare a b = Utf8.lexicographic a.toHex b.toHex := by
  have hlen : (Hex.encode a.toBytes).length = (Hex.encode b.toBytes).length := by simp
  rw [toHex, toHex, Hex.wide, Hex.wide, Hex.lexicographic_prefixed,
    (Hex.spells_encode _).lexicographic_eq (Hex.spells_encode _) hlen, value_toBytes,
    value_toBytes, compare_eq]

end U256

namespace Felt

theorem compare_eq (a b : Felt) : compare a b = compare a.val b.val := rfl

theorem compare_toU256 (a b : Felt) : compare a.toU256 b.toU256 = compare a b := by
  rw [U256.compare_eq, toNat_toU256, toNat_toU256, compare_eq]

theorem compare_eq_toHex (a b : Felt) : compare a b = Utf8.shortlex a.toHex b.toHex := by
  rw [toHex_eq, toHex_eq, Hex.shortlex_toDigits, compare_eq]

end Felt

/-- **The order of numbers is the same in every form.** Integers compare by their limbs as their
numbers do, as their 32 bytes from the first one on, as their four words from the last one on, and
as the texts of their numerals. Elements compare as their representatives and as the integers that
they become, by bytes and by words likewise, and as their numerals if a shorter one comes first.
Addresses compare as their elements. -/
theorem order_in_every_form :
    (∀ a b : U256,
      compare a b = compare a.toNat b.toNat ∧
      compare a b = Bytes.lexicographic a.toBytes b.toBytes ∧
      compare a b = a.toWords.lexicographic b.toWords ∧
      compare a b = Utf8.lexicographic a.toHex b.toHex) ∧
    (∀ a b : Felt,
      compare a b = compare a.val b.val ∧
      compare a b = compare a.toU256 b.toU256 ∧
      compare a b = Bytes.lexicographic a.toBytes b.toBytes ∧
      compare a b = a.toWords.lexicographic b.toWords ∧
      compare a b = Utf8.shortlex a.toHex b.toHex) ∧
    (∀ (s : Space) (a b : Address s), compare a b = compare a.felt b.felt) := by
  refine ⟨fun a b => ⟨a.compare_eq b, a.compare_eq_toBytes b, a.compare_eq_toWords b,
    a.compare_eq_toHex b⟩, fun a b => ⟨rfl, (Felt.compare_toU256 a b).symm, ?_, ?_,
    a.compare_eq_toHex b⟩, fun s a b => rfl⟩
  · rw [← Felt.compare_toU256, U256.compare_eq_toBytes, Felt.toBytes_toU256, Felt.toBytes_toU256]
  · rw [← Felt.compare_toU256, U256.compare_eq_toWords, Felt.toU256, Felt.toU256,
      U256.toWords_ofWords, U256.toWords_ofWords]

end FieldWords
