import FieldWords.Bytes
import FieldWords.Felt.Modular
import FieldWords.Text.Decimal
import FieldWords.Text.Hex
import FieldWords.Text.Outline

/-!
# Field elements

The prime field of `P = 2 ^ 251 + 17 * 2 ^ 192 + 1` elements. An element is its representative in
`[0, P)`. Sums, differences, products and negation are those of words modulo `P`: they wrap, and no
operation on words that they use can fail (`add?_eq_add`, `sub?_eq_sub`). Elements are ordered by
their representatives.
-/

-- Powers of numbers are those of `Nat` itself.
attribute [local instance (5000)] instPowNat

namespace FieldWords

/-- An element of the prime field, by its representative. -/
structure Felt where
  val : Nat
  isLt : val < prime
  deriving DecidableEq

namespace Felt

theorem val_injective {a b : Felt} (h : a.val = b.val) : a = b := by
  cases a; cases b; simpa using h

/-- The element of a number, reduced modulo `P`. -/
def ofNat (n : Nat) : Felt := ⟨n % prime, Nat.mod_lt _ prime_pos⟩

@[simp] theorem val_ofNat (n : Nat) : (ofNat n).val = n % prime := rfl

theorem val_ofNat_of_lt {n : Nat} (h : n < prime) : (ofNat n).val = n := Nat.mod_eq_of_lt h

@[simp] theorem ofNat_val (a : Felt) : ofNat a.val = a := val_injective (val_ofNat_of_lt a.isLt)

def zero : Felt := ofNat 0

def one : Felt := ofNat 1

/-- The greatest representative, `P - 1`. -/
def max : Felt := ⟨prime - 1, by decide⟩

/-- One for true. -/
def ofBool (b : Bool) : Felt := if b then one else zero

instance : Inhabited Felt := ⟨zero⟩

def isZero (a : Felt) : Bool := a.val == 0

instance : Ord Felt := ⟨fun a b => compare a.val b.val⟩

/-! ### Arithmetic -/

/-- The word that holds an element. -/
def word (a : Felt) : Modular.Word := Modular.word a.val

/-- The element that a word holds. -/
def ofWord (w : Modular.Word) (h : w.toNat < prime) : Felt := ⟨w.toNat, h⟩

/-- The remainder of a number lies below the prime as a word, too. -/
theorem toNat_word_mod (n : Nat) : (Modular.word (n % prime)).toNat = n % prime :=
  Modular.toNat_word (Modular.fits (by have := Nat.mod_lt n prime_pos; omega))

theorem toNat_lt_of_some {n : Nat} {w : Modular.Word}
    (h : some (Modular.word (n % prime)) = some w) : w.toNat < prime := by
  rw [← Option.some.inj h, toNat_word_mod]
  exact Nat.mod_lt n prime_pos

theorem ofWord_word (n : Nat) (h : (Modular.word (n % prime)).toNat < prime) :
    ofWord (Modular.word (n % prime)) h = ofNat n :=
  val_injective (toNat_word_mod n)

/-- The sum, unless an operation on words fails. -/
def add? (a b : Felt) : Option Felt :=
  (Modular.addMod a.word b.word).pmap ofWord fun _ h =>
    toNat_lt_of_some ((Modular.addMod_word a.isLt b.isLt).symm.trans h)

/-- The difference, unless an operation on words fails. -/
def sub? (a b : Felt) : Option Felt :=
  (Modular.subMod a.word b.word).pmap ofWord fun _ h =>
    toNat_lt_of_some ((Modular.subMod_word a.isLt b.isLt).symm.trans h)

/-- The difference from zero, unless an operation on words fails. -/
def neg? (a : Felt) : Option Felt := zero.sub? a

theorem add?_eq (a b : Felt) : a.add? b = some (ofNat (a.val + b.val)) := by
  simp [add?, word, Modular.addMod_word a.isLt b.isLt, ofWord_word]

theorem sub?_eq (a b : Felt) : a.sub? b = some (ofNat (a.val + (prime - b.val))) := by
  simp [sub?, word, Modular.subMod_word a.isLt b.isLt, ofWord_word]

/-- The sum: no operation on words fails. -/
def add (a b : Felt) : Felt := (a.add? b).get (by rw [add?_eq]; rfl)

/-- The difference: no operation on words fails. -/
def sub (a b : Felt) : Felt := (a.sub? b).get (by rw [sub?_eq]; rfl)

/-- The product; no operation on words that it uses can fail. -/
def mul (a b : Felt) : Felt :=
  ofWord (Modular.mulMod a.word b.word)
    (toNat_lt_of_some (congrArg some (Modular.mulMod_word a.isLt b.isLt).symm))

/-- The difference from zero. -/
def neg (a : Felt) : Felt := zero.sub a

instance : Add Felt := ⟨add⟩
instance : Sub Felt := ⟨sub⟩
instance : Mul Felt := ⟨mul⟩
instance : Neg Felt := ⟨neg⟩

theorem add?_eq_add (a b : Felt) : a.add? b = some (a + b) := (Option.some_get _).symm

theorem sub?_eq_sub (a b : Felt) : a.sub? b = some (a - b) := (Option.some_get _).symm

theorem neg?_eq_neg (a : Felt) : a.neg? = some (-a) := sub?_eq_sub zero a

theorem val_add (a b : Felt) : (a + b).val = (a.val + b.val) % prime := by
  have h : some (a + b) = some (ofNat (a.val + b.val)) := by rw [← add?_eq_add, add?_eq]
  rw [Option.some.inj h, val_ofNat]

theorem val_sub (a b : Felt) : (a - b).val = (a.val + (prime - b.val)) % prime := by
  have h : some (a - b) = some (ofNat (a.val + (prime - b.val))) := by rw [← sub?_eq_sub, sub?_eq]
  rw [Option.some.inj h, val_ofNat]

theorem val_mul (a b : Felt) : (a * b).val = a.val * b.val % prime := by
  have h : Modular.mulMod a.word b.word = Modular.word (a.val * b.val % prime) :=
    Modular.mulMod_word a.isLt b.isLt
  change (Modular.mulMod a.word b.word).toNat = _
  rw [h, toNat_word_mod]

theorem val_neg (a : Felt) : (-a).val = (prime - a.val) % prime := by
  have h := val_sub zero a
  rwa [show zero.val = 0 from rfl, Nat.zero_add] at h

/-! ### Bytes and text -/

/-- The 32 bytes of the representative. -/
def toBytes (a : Felt) : List UInt8 := Bytes.ofNat 32 a.val

@[simp] theorem length_toBytes (a : Felt) : a.toBytes.length = 32 := by simp [toBytes]

@[simp] theorem value_toBytes (a : Felt) : Bytes.value a.toBytes = a.val :=
  Bytes.value_ofNat_of_lt (Nat.lt_trans a.isLt (by decide))

/-- The bytes of the prime itself. -/
def primeBytes : List UInt8 := Bytes.ofNat 32 prime

/-- The hexadecimal numeral without leading zeros. -/
def toHex (a : Felt) : String := Hex.short a.toBytes

/-- The decimal numeral. -/
def toDecimal (a : Felt) : String := Decimal.write a.val

instance : Inspect Felt := ⟨fun a => .text ("Felt(" ++ a.toHex ++ ")")⟩

end Felt

end FieldWords
