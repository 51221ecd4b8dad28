/-!
# Decimal numerals

Numbers are written in base ten without leading zeros, and read back from any non-empty string of
digits.
-/

namespace FieldWords.Decimal

/-- The numeral of a number. -/
def write (n : Nat) : String := String.ofList (Nat.toDigits 10 n)

@[simp] theorem toList_write (n : Nat) : (write n).toList = Nat.toDigits 10 n := by
  simp [write]

/-- The number that digits write, whatever stands in front. -/
def value (ds : List Char) : Nat := Nat.ofDigitChars 10 ds 0

/-- The number of a non-empty string of digits. -/
def read? (s : String) : Option Nat :=
  if s.toList ≠ [] ∧ s.toList.all Char.isDigit then some (value s.toList) else none

/-- A numeral reads back. -/
theorem read?_write (n : Nat) : read? (write n) = some n := by
  have hd : (Nat.toDigits 10 n).all Char.isDigit = true :=
    List.all_eq_true.mpr fun c hc => Nat.isDigit_of_mem_toDigits (by decide) (by decide) hc
  simp [read?, value, hd, Nat.ofDigitChars_ten_toDigits]

/-- Different numbers have different numerals. -/
theorem write_inj {m n : Nat} : write m = write n ↔ m = n := by
  constructor
  · intro h
    have hread : read? (write m) = read? (write n) := by rw [h]
    rwa [read?_write, read?_write, Option.some.injEq] at hread
  · rintro rfl
    rfl

end FieldWords.Decimal
