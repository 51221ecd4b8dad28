/-!
# Modular arithmetic on words

A representative modulo `P = 2 ^ 251 + 17 * 2 ^ 192 + 1` is held in a word of 256 bits. A sum or a
difference of words exists only if it fits, and products have twice the width. Sums, differences
and products modulo `P` are put together from these. On words below `P` no part of them is missing:
the sum of two such words fits, and so does the prime less one of them (`addMod_word`,
`subMod_word`, `mulMod_word`).
-/

-- Powers of numbers are those of `Nat` itself.
attribute [local instance (5000)] instPowNat

namespace FieldWords

/-- The number of elements of the field. -/
def prime : Nat := 2 ^ (251 : Nat) + 17 * 2 ^ (192 : Nat) + 1

theorem prime_pos : 0 < prime := by decide

namespace Modular

/-- A machine word of 256 bits. -/
abbrev Word := BitVec 256

/-- The word of a number. -/
def word (n : Nat) : Word := BitVec.ofNat 256 n

theorem toNat_word {n : Nat} (h : n < 2 ^ (256 : Nat)) : (word n).toNat = n := by
  rw [word, BitVec.toNat_ofNat, Nat.mod_eq_of_lt h]

/-- A number below `2 * P` has a word, with room to spare. -/
theorem fits {n : Nat} (h : n < 2 * prime) : n < 2 ^ (256 : Nat) :=
  Nat.lt_trans h (by decide)

theorem word_le_word {m n : Nat} (hm : m < 2 ^ (256 : Nat)) (hn : n < 2 ^ (256 : Nat)) :
    word m ≤ word n ↔ m ≤ n := by
  rw [BitVec.le_def, toNat_word hm, toNat_word hn]

/-! ### Words -/

/-- The sum, unless it leaves 256 bits. -/
def add? (a b : Word) : Option Word :=
  if a.toNat + b.toNat < 2 ^ (256 : Nat) then some (a + b) else none

/-- The difference, unless it is negative. -/
def sub? (a b : Word) : Option Word := if b ≤ a then some (a - b) else none

/-- The product, in twice the width. -/
def fullMul {w : Nat} (a b : BitVec w) : BitVec (w + w) := a.setWidth (w + w) * b.setWidth (w + w)

theorem add?_word {m n : Nat} (h : m + n < 2 ^ (256 : Nat)) :
    add? (word m) (word n) = some (word (m + n)) := by
  have hm : (word m).toNat = m := toNat_word (by omega)
  have hn : (word n).toNat = n := toNat_word (by omega)
  rw [add?, hm, hn, if_pos h, Option.some.injEq]
  exact (BitVec.ofNat_add m n).symm

theorem sub?_word {m n : Nat} (hm : m < 2 ^ (256 : Nat)) (h : n ≤ m) :
    sub? (word m) (word n) = some (word (m - n)) := by
  have hn : n < 2 ^ (256 : Nat) := Nat.lt_of_le_of_lt h hm
  have hle : word n ≤ word m := (word_le_word hn hm).mpr h
  rw [sub?, if_pos hle, Option.some.injEq]
  apply BitVec.eq_of_toNat_eq
  rw [BitVec.toNat_sub_of_le hle, toNat_word hm, toNat_word hn, toNat_word (by omega)]

theorem toNat_fullMul {w : Nat} (a b : BitVec w) : (fullMul a b).toNat = a.toNat * b.toNat := by
  have h : a.toNat * b.toNat < 2 ^ (w + w) := by
    rw [Nat.pow_add]
    exact Nat.mul_lt_mul'' a.isLt b.isLt
  have hw (c : BitVec w) : (c.setWidth (w + w)).toNat = c.toNat :=
    BitVec.toNat_setWidth_of_le (Nat.le_add_right w w)
  rw [fullMul, BitVec.toNat_mul, hw, hw, Nat.mod_eq_of_lt h]

/-! ### Modulo the prime -/

/-- The sum of words, with the prime taken off when it is reached. -/
def addMod (a b : Word) : Option Word := do
  let sum ← add? a b
  if word prime ≤ sum then sub? sum (word prime) else return sum

/-- The difference of words, or what the second lacks of the prime put onto the first. -/
def subMod (a b : Word) : Option Word := do
  if b ≤ a then sub? a b
  else
    let lack ← sub? (word prime) b
    add? lack a

/-- The lowest 256 bits of the remainder of the product. -/
def mulMod (a b : Word) : Word := (fullMul a b % (word prime).setWidth (256 + 256)).setWidth 256

theorem addMod_word {m n : Nat} (hm : m < prime) (hn : n < prime) :
    addMod (word m) (word n) = some (word ((m + n) % prime)) := by
  have hp : prime < 2 ^ (256 : Nat) := by decide
  have hs : m + n < 2 ^ (256 : Nat) := fits (by omega)
  simp only [addMod, add?_word hs, Option.bind_eq_bind, Option.bind_some, word_le_word hp hs]
  split
  · next h => rw [sub?_word hs h, Nat.mod_eq_sub_mod h, Nat.mod_eq_of_lt (by omega)]
  · next h => rw [Nat.mod_eq_of_lt (by omega)]; rfl

theorem subMod_word {m n : Nat} (hm : m < prime) (hn : n < prime) :
    subMod (word m) (word n) = some (word ((m + (prime - n)) % prime)) := by
  have hp : prime < 2 ^ (256 : Nat) := by decide
  have hm' : m < 2 ^ (256 : Nat) := fits (by omega)
  have hn' : n < 2 ^ (256 : Nat) := fits (by omega)
  simp only [subMod, word_le_word hn' hm']
  split
  · next h =>
    rw [sub?_word hm' h, show m + (prime - n) = m - n + prime by omega, Nat.add_mod_right,
      Nat.mod_eq_of_lt (by omega)]
  · next h =>
    simp only [sub?_word hp (Nat.le_of_lt hn), Option.bind_eq_bind, Option.bind_some]
    rw [add?_word (fits (by omega)), Nat.add_comm (prime - n), Nat.mod_eq_of_lt (by omega)]

theorem mulMod_word {m n : Nat} (hm : m < prime) (hn : n < prime) :
    mulMod (word m) (word n) = word (m * n % prime) := by
  have hp : ((word prime).setWidth (256 + 256)).toNat = prime := by decide
  have hm' : (word m).toNat = m := toNat_word (fits (by omega))
  have hn' : (word n).toNat = n := toNat_word (fits (by omega))
  apply BitVec.eq_of_toNat_eq
  rw [mulMod, BitVec.toNat_setWidth, BitVec.toNat_umod, toNat_fullMul, hp, hm', hn', word,
    BitVec.toNat_ofNat]

end Modular

end FieldWords
