import FieldWords.Proofs.Text.Ascii
import FieldWords.Proofs.Text.Hex
import FieldWords.Proofs.Text.Numeral

/-!
# Quoted characters

A printable character of ASCII stands for itself between quote marks, unless it is the mark or the
backslash (`escape_of_printable`). What stands for a character tells which one it is
(`unescape_escape`), so different characters are shown differently (`char_inj`). A message about
bytes that are no hexadecimal text shows the byte and counts its place behind it, and tells both
(`Hex.Error.message_injective`).
-/

namespace FieldWords

/-! ### Separators -/

/-- What stands behind the last separator, and what stands in front of it. -/
theorem append_cons_inj_of_notMem_right {α : Type} {c : α} {xs ys ds es : List α} (hds : c ∉ ds)
    (hes : c ∉ es) : xs ++ c :: ds = ys ++ c :: es ↔ xs = ys ∧ ds = es := by
  constructor
  · intro h
    obtain ⟨as, rfl, hcons⟩ | ⟨as, rfl, hcons⟩ := List.append_eq_append_iff.mp h
    · cases as with
      | nil => simpa using hcons
      | cons a as =>
        obtain ⟨rfl, rfl⟩ := List.cons.inj hcons
        exact absurd (by simp) hds
    · cases as with
      | nil => simpa using hcons.symm
      | cons a as =>
        obtain ⟨rfl, rfl⟩ := List.cons.inj hcons
        exact absurd (by simp) hes
  · rintro ⟨rfl, rfl⟩
    rfl

/-! ### Digits -/

namespace Hex

theorem digitValue_digitByte {d : ℕ} (h : d < 16) : digitValue (digitByte d) = d := by
  have htable : ∀ d ∈ List.range 16, digitValue (digitByte d) = d := by decide +kernel
  exact htable d (List.mem_range.mpr h)

/-- The digits of a number tell it. -/
theorem Spells.number_eq {cs : List Char} {n : ℕ} (h : Spells cs n) :
    number (Utf8.encodeChars cs) = n := by
  obtain ⟨vs, rfl, hlt, rfl⟩ := h
  have hvalues : vs.map (digitValue ∘ digitByte) = vs :=
    (List.map_congr_left fun v hv => digitValue_digitByte (hlt v hv)).trans vs.map_id
  rw [encodeChars_map_digitChar hlt, number, List.map_map, hvalues]

end Hex

/-! ### Escapes -/

namespace Quoted

/-- The character that a short escape stands for, by what follows the backslash. -/
def unescapeShort (c : Char) : Char :=
  if c = '0' then '\x00'
  else if c = 't' then '\t'
  else if c = 'n' then '\n'
  else if c = 'r' then '\r'
  else c

/-- The character that an escape stands for, by the length of the escape. -/
def unescape : List Char → Char
  | [] => '\x00'
  | [c] => c
  | [_, c] => unescapeShort c
  | _ :: _ :: _ :: cs => Char.ofNat (Hex.number (Utf8.encodeChars cs.dropLast))

/-- What stands for a character between quote marks tells which one it is. -/
theorem unescape_escape {mark : Char} (hmark : mark = '\'' ∨ mark = '"') (c : Char) :
    unescape (escape mark c) = c := by
  unfold escape
  split
  · next h => exact h.symm
  split
  · next h => exact h.symm
  split
  · next h => exact h.symm
  split
  · next h => exact h.symm
  split
  · next h =>
    obtain rfl | rfl := h
    · rfl
    · obtain rfl | rfl := hmark
      · rfl
      · rfl
  split
  · have hdrop : (Nat.toDigits 16 c.toNat ++ ['}']).dropLast = Nat.toDigits 16 c.toNat :=
      List.dropLast_concat
    change Char.ofNat (Hex.number (Utf8.encodeChars
      (Nat.toDigits 16 c.toNat ++ ['}']).dropLast)) = c
    rw [hdrop, (Hex.spells_toDigits c.toNat).number_eq, Char.ofNat_toNat]
  · rfl

theorem toList_char (c : Char) : (char c).toList = '\'' :: (escape '\'' c ++ ['\'']) := by
  simp [char, enclose]

theorem char_inj {c d : Char} : char c = char d ↔ c = d := by
  constructor
  · intro h
    have hlist := congrArg String.toList h
    rw [toList_char, toList_char, List.cons.injEq, and_iff_right rfl,
      List.append_left_inj] at hlist
    rw [← unescape_escape (Or.inl rfl) c, hlist, unescape_escape (Or.inl rfl)]
  · rintro rfl
    rfl

/-- A printable character of ASCII shows. -/
theorem escape_of_printable {mark c : Char} (hmark : c ≠ mark) (hbackslash : c ≠ '\\')
    (hle : 0x20 ≤ c.toNat) (hlt : c.toNat < 0x7F) : escape mark c = [c] := by
  have hcontrol : ∀ d : Char, d.toNat < 0x20 → c ≠ d := by
    rintro d hd rfl
    exact Nat.not_lt_of_le hle hd
  rw [escape, if_neg (hcontrol _ (by decide)), if_neg (hcontrol _ (by decide)),
    if_neg (hcontrol _ (by decide)), if_neg (hcontrol _ (by decide)),
    if_neg (not_or_intro hbackslash hmark), if_neg (by rw [Hidden.contains_eq_false hle hlt]; simp)]

end Quoted

/-! ### Messages -/

namespace Hex

namespace Error

theorem toList_message (b : UInt8) (position : ℕ) :
    (invalidCharacter b position).message.toList =
      ("Invalid character ".toList ++ (Quoted.char (Utf8.charOf b)).toList ++
        " at position".toList) ++ ' ' :: Nat.toDigits 10 position := by
  have hspace : " at position ".toList = " at position".toList ++ [' '] := by simp
  have hmessage : (invalidCharacter b position).message =
      "Invalid character " ++ Quoted.char (Utf8.charOf b) ++ " at position " ++
        Decimal.write position := rfl
  rw [hmessage, String.toList_append, String.toList_append, String.toList_append,
    Decimal.toList_write, hspace, ← List.append_assoc, List.append_assoc _ [' '],
    List.singleton_append]

theorem space_notMem_toDigits (n : ℕ) : ' ' ∉ Nat.toDigits 10 n := fun h =>
  absurd (Nat.isDigit_of_mem_toDigits (by decide) (by decide) h) (by decide)

/-- A message about a byte begins otherwise than one about a length. -/
theorem message_ne_oddLength (b : UInt8) (position : ℕ) :
    (invalidCharacter b position).message ≠ oddLength.message := by
  intro h
  have hodd : oddLength.message = "Odd number of digits" := rfl
  have hhead := congrArg (fun text => text.toList.head?) h
  simp [toList_message, hodd] at hhead

/-- The message tells the error: the byte that it shows, and its position. -/
theorem message_injective : Function.Injective message := by
  intro e f h
  cases e with
  | invalidCharacter b i =>
    cases f with
    | invalidCharacter c j =>
      have hlist := congrArg String.toList h
      rw [toList_message, toList_message,
        append_cons_inj_of_notMem_right (space_notMem_toDigits i) (space_notMem_toDigits j),
        List.append_left_inj, List.append_right_inj, String.toList_inj, Quoted.char_inj,
        Utf8.charOf_inj, ← Decimal.toList_write, ← Decimal.toList_write, String.toList_inj,
        Decimal.write_inj] at hlist
      rw [hlist.1, hlist.2]
    | oddLength => exact absurd h (message_ne_oddLength b i)
  | oddLength =>
    cases f with
    | invalidCharacter c j => exact absurd h.symm (message_ne_oddLength c j)
    | oddLength => rfl

/-- The message about a printable byte shows it between quote marks. -/
theorem message_of_printable {b : UInt8} (hmark : Utf8.charOf b ≠ '\'')
    (hbackslash : Utf8.charOf b ≠ '\\') (hle : 0x20 ≤ b.toNat) (hlt : b.toNat < 0x7F)
    (position : ℕ) :
    (invalidCharacter b position).message.toList =
      "Invalid character '".toList ++ Utf8.charOf b :: "' at position ".toList ++
        Nat.toDigits 10 position := by
  rw [← Utf8.toNat_charOf] at hle hlt
  rw [toList_message, Quoted.toList_char, Quoted.escape_of_printable hmark hbackslash hle hlt]
  simp

/-- A letter behind the sixteen digits, at the second place. -/
example : (invalidCharacter 0x67 1).message = "Invalid character 'g' at position 1" := by
  decide +kernel

end Error

end Hex

end FieldWords
