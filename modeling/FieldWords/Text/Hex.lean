import FieldWords.Bytes
import FieldWords.Text.Decimal
import FieldWords.Text.Quoted
import FieldWords.Text.Utf8

/-!
# Hexadecimal

Bytes are written with two lower-case digits each. Reading takes digits of either case from the
bytes of a text, in pairs from the left, and reports the first byte that is no digit together with
its position. A numeral may carry one prefix `0x`, may have an odd number of digits, and stands for
its significant bytes.
-/

namespace FieldWords.Hex

/-- Why bytes are no hexadecimal text. -/
inductive Error where
  | invalidCharacter (byte : UInt8) (position : Nat)
  | oddLength
  deriving DecidableEq, Repr

/-- A byte that is no digit is shown as the character of its code. -/
def Error.message : Error → String
  | .invalidCharacter byte position =>
    "Invalid character " ++ Quoted.char (Char.ofNat byte.toNat) ++ " at position " ++
      Decimal.write position
  | .oddLength => "Odd number of digits"

/-- The value of the digit with a character code, in either case. -/
def digitOfCode? (n : Nat) : Option Nat :=
  if 48 ≤ n ∧ n < 58 then some (n - 48)
  else if 65 ≤ n ∧ n < 71 then some (n - 55)
  else if 97 ≤ n ∧ n < 103 then some (n - 87)
  else none

/-- The value of a digit. -/
def digit? (b : UInt8) : Option Nat := digitOfCode? b.toNat

/-- The digit at a position, or the report that there is none. -/
def digitAt (position : Nat) (b : UInt8) : Except Error Nat :=
  match digit? b with
  | some d => .ok d
  | none => .error (.invalidCharacter b position)

/-- Pairs of digits from a position on. -/
def decodeFrom (position : Nat) : List UInt8 → Except Error (List UInt8)
  | [] => .ok []
  | [_] => .error .oddLength
  | a :: b :: bs => do
    let high ← digitAt position a
    let low ← digitAt (position + 1) b
    let rest ← decodeFrom (position + 2) bs
    return UInt8.ofNat (16 * high + low) :: rest

/-- The bytes that a text of digit pairs spells; an odd length is refused before any digit. -/
def decode (bs : List UInt8) : Except Error (List UInt8) :=
  if bs.length % 2 = 0 then decodeFrom 0 bs else .error .oddLength

/-- Two digits for each byte. -/
def encode (bs : List UInt8) : List Char :=
  bs.flatMap fun b => [Nat.digitChar (b.toNat / 16), Nat.digitChar (b.toNat % 16)]

@[simp] theorem encode_nil : encode [] = [] := rfl

@[simp] theorem encode_cons (b : UInt8) (bs : List UInt8) :
    encode (b :: bs) = Nat.digitChar (b.toNat / 16) :: Nat.digitChar (b.toNat % 16) :: encode bs :=
  rfl

@[simp] theorem length_encode (bs : List UInt8) : (encode bs).length = 2 * bs.length := by
  induction bs with
  | nil => rfl
  | cons b bs ih => simp [ih]; omega

/-! ### Reading back -/

/-- The byte of a digit. -/
def digitByte (d : Nat) : UInt8 := UInt8.ofNat (Nat.digitChar d).toNat

private theorem digitByte_table : ∀ d ∈ List.range 16,
    String.utf8EncodeChar (Nat.digitChar d) = [digitByte d] ∧ digit? (digitByte d) = some d := by
  decide

/-- A digit takes one byte. -/
theorem utf8_digitChar {d : Nat} (h : d < 16) :
    String.utf8EncodeChar (Nat.digitChar d) = [digitByte d] :=
  (digitByte_table d (List.mem_range.mpr h)).1

/-- The byte of a digit reads back. -/
theorem digit?_digitByte {d : Nat} (h : d < 16) : digit? (digitByte d) = some d :=
  (digitByte_table d (List.mem_range.mpr h)).2

theorem decodeFrom_encode (position : Nat) (bs : List UInt8) :
    decodeFrom position (Utf8.encodeChars (encode bs)) = .ok bs := by
  induction bs generalizing position with
  | nil => rfl
  | cons b bs ih =>
    have hb : b.toNat < 256 := b.toNat_lt
    have hh : b.toNat / 16 < 16 := by omega
    have hl : b.toNat % 16 < 16 := by omega
    simp only [encode_cons, Utf8.encodeChars_cons, utf8_digitChar hh, utf8_digitChar hl,
      List.cons_append, List.nil_append, decodeFrom, digitAt, digit?_digitByte hh,
      digit?_digitByte hl, ih]
    change Except.ok (UInt8.ofNat (16 * (b.toNat / 16) + b.toNat % 16) :: bs) = _
    rw [show 16 * (b.toNat / 16) + b.toNat % 16 = b.toNat by omega, UInt8.ofNat_toNat]

@[simp] theorem length_utf8_encode (bs : List UInt8) :
    (Utf8.encodeChars (encode bs)).length = 2 * bs.length := by
  induction bs with
  | nil => rfl
  | cons b bs ih =>
    have hb : b.toNat < 256 := b.toNat_lt
    rw [encode_cons, Utf8.encodeChars_cons, Utf8.encodeChars_cons,
      utf8_digitChar (by omega), utf8_digitChar (by omega)]
    simp [ih]
    omega

/-- Written bytes read back. -/
theorem decode_encode (bs : List UInt8) : decode (Utf8.encodeChars (encode bs)) = .ok bs := by
  simp [decode, decodeFrom_encode]

/-! ### Numerals -/

/-- A numeral without its prefix. -/
def unprefixed : List Char → List Char
  | '0' :: 'x' :: cs => cs
  | cs => cs

/-- Bytes in an even number: a digit zero (48) is put in front of an odd one. -/
def padded (bs : List UInt8) : List UInt8 := if bs.length % 2 = 0 then bs else 48 :: bs

/-- Padding makes the number even. -/
theorem length_padded (bs : List UInt8) : (padded bs).length % 2 = 0 := by
  unfold padded
  split
  · assumption
  · rw [List.length_cons]; omega

/-- The significant bytes of a numeral. -/
def significant (s : String) : Except Error (List UInt8) :=
  (decode (padded (Utf8.encodeChars (unprefixed s.toList)))).map Bytes.trim

/-- Bytes as a plain string of digits. -/
def plain (bs : List UInt8) : String := String.ofList (encode bs)

/-- Bytes as a numeral of full width. -/
def wide (bs : List UInt8) : String := String.ofList ('0' :: 'x' :: encode bs)

/-- Bytes as a numeral without leading zeros. -/
def short (bs : List UInt8) : String :=
  match (encode bs).dropWhile (· == '0') with
  | [] => "0x0"
  | ds => String.ofList ('0' :: 'x' :: ds)

end FieldWords.Hex
