import FieldWords.Fault
import FieldWords.Text.Decimal
import FieldWords.Text.Outline
import FieldWords.U128.WideProduct

/-!
# Checked 128-bit integers

Unsigned integers below `2 ^ 128`. An operation whose exact result lies outside is a fault; only
the carrying forms wrap, and they report it. A checked operation is what its steps come to on native
operations that wrap.
-/

-- Powers of numbers are those of `Nat` itself.
attribute [local instance (5000)] instPowNat

namespace FieldWords

/-- An unsigned integer of 128 bits. -/
structure U128 where
  bits : BitVec 128
  deriving DecidableEq

namespace U128

/-- The integer itself. -/
def toNat (a : U128) : Nat := a.bits.toNat

theorem toNat_lt (a : U128) : a.toNat < 2 ^ (128 : Nat) := a.bits.isLt

theorem toNat_injective {a b : U128} (h : a.toNat = b.toNat) : a = b := by
  cases a; cases b; simp only [U128.mk.injEq]; exact BitVec.eq_of_toNat_eq h

theorem toNat_inj {a b : U128} : a.toNat = b.toNat ↔ a = b :=
  ⟨toNat_injective, fun h => h ▸ rfl⟩

/-- The last 128 bits of a number. -/
def ofNat (n : Nat) : U128 := ⟨BitVec.ofNat 128 n⟩

@[simp] theorem toNat_ofNat (n : Nat) : (ofNat n).toNat = n % 2 ^ (128 : Nat) := by
  simp [ofNat, toNat]

@[simp] theorem ofNat_toNat (a : U128) : ofNat a.toNat = a :=
  toNat_injective (by rw [toNat_ofNat, Nat.mod_eq_of_lt a.toNat_lt])

/-- An unsigned integer of any width; one of at most 128 bits keeps its value. -/
def ofBitVec {w : Nat} (x : BitVec w) : U128 := ⟨x.setWidth 128⟩

theorem toNat_ofBitVec {w : Nat} (x : BitVec w) (h : w ≤ 128) : (ofBitVec x).toNat = x.toNat := by
  have hx : x.toNat < 2 ^ (128 : Nat) :=
    Nat.lt_of_lt_of_le x.isLt (Nat.pow_le_pow_right (by decide) h)
  rw [ofBitVec, toNat, BitVec.toNat_setWidth]
  exact Nat.mod_eq_of_lt hx

/-- One for true. -/
def ofBool (b : Bool) : U128 := ofNat b.toNat

def zero : U128 := ofNat 0

def one : U128 := ofNat 1

/-- The greatest integer, `2 ^ 128 - 1`. -/
def max : U128 := ⟨BitVec.allOnes 128⟩

instance : Inhabited U128 := ⟨zero⟩

def isZero (a : U128) : Bool := a.bits == 0#128

instance : Ord U128 := ⟨fun a b => compare a.toNat b.toNat⟩

/-! ### Checked arithmetic on native operations -/

section Steps

variable {m : Type → Type} [Monad m] (native : Native m)

/-- A sum, after a test of the room that is left. -/
def checkedAddOn (a b : U128) : m (Except Fault U128) := do
  let room ← native.sub max.bits b.bits
  if room < a.bits then return .error (.overflow "u128_add")
  else
    let sum ← native.add a.bits b.bits
    return .ok ⟨sum⟩

/-- A difference, after a comparison. -/
def checkedSubOn (a b : U128) : m (Except Fault U128) :=
  if a.bits < b.bits then return .error (.underflow "u128_sub")
  else do
    let difference ← native.sub a.bits b.bits
    return .ok ⟨difference⟩

/-- The low word of a wide product, after a look at the high one. -/
def checkedMulOn (a b : U128) : m (Except Fault U128) := do
  let product ← WideProduct.wideMulOn native a.bits b.bits
  return if product.1 = 0#128 then .ok ⟨product.2⟩ else .error (.overflow "u128_mul")

/-- A quotient, after a test of the divisor. -/
def checkedDivOn (a b : U128) : m (Except Fault U128) :=
  if b.isZero then return .error .divisionByZero
  else do
    let quotient ← native.div a.bits b.bits
    return .ok ⟨quotient⟩

/-- A remainder, after a test of the divisor. -/
def checkedRemOn (a b : U128) : m (Except Fault U128) :=
  if b.isZero then return .error .divisionByZero
  else do
    let remainder ← native.rem a.bits b.bits
    return .ok ⟨remainder⟩

/-- A quotient, and a remainder if that has not failed. -/
def checkedDivRemOn (a b : U128) : m (Except Fault (U128 × U128)) := do
  match ← checkedDivOn native a b with
  | .error fault => return .error fault
  | .ok q => return (← checkedRemOn native a b).map fun r => (q, r)

end Steps

/-! ### Checked arithmetic -/

/-- The sum, unless it leaves 128 bits. -/
def checkedAdd (a b : U128) : Except Fault U128 := (checkedAddOn .wrapping a b).run

/-- The difference, unless it is negative. -/
def checkedSub (a b : U128) : Except Fault U128 := (checkedSubOn .wrapping a b).run

/-- The product, unless it has a high word. -/
def checkedMul (a b : U128) : Except Fault U128 := (checkedMulOn .wrapping a b).run

/-- The floor of the quotient, unless the divisor is zero. -/
def checkedDiv (a b : U128) : Except Fault U128 := (checkedDivOn .wrapping a b).run

/-- The remainder, unless the divisor is zero. -/
def checkedRem (a b : U128) : Except Fault U128 := (checkedRemOn .wrapping a b).run

/-- Quotient and remainder together. -/
def checkedDivRem (a b : U128) : Except Fault (U128 × U128) := (checkedDivRemOn .wrapping a b).run

theorem checkedAdd_eq_ite (a b : U128) :
    a.checkedAdd b =
      if max.bits - b.bits < a.bits then .error (.overflow "u128_add")
      else .ok ⟨a.bits + b.bits⟩ := by
  rw [checkedAdd, checkedAddOn, Native.wrapping_sub, pure_bind]
  split
  · rfl
  · rfl

theorem checkedSub_eq_ite (a b : U128) :
    a.checkedSub b =
      if a.bits < b.bits then .error (.underflow "u128_sub") else .ok ⟨a.bits - b.bits⟩ := by
  rw [checkedSub, checkedSubOn]
  split
  · rfl
  · rfl

theorem checkedMul_eq_ite (a b : U128) :
    a.checkedMul b =
      if (WideProduct.wideMul a.bits b.bits).1 = 0#128 then
        .ok ⟨(WideProduct.wideMul a.bits b.bits).2⟩
      else .error (.overflow "u128_mul") := rfl

theorem checkedDiv_eq_ite (a b : U128) :
    a.checkedDiv b = if b.isZero then .error .divisionByZero else .ok ⟨a.bits / b.bits⟩ := by
  rw [checkedDiv, checkedDivOn]
  split
  · rfl
  · rfl

theorem checkedRem_eq_ite (a b : U128) :
    a.checkedRem b = if b.isZero then .error .divisionByZero else .ok ⟨a.bits % b.bits⟩ := by
  rw [checkedRem, checkedRemOn]
  split
  · rfl
  · rfl

/-- The remainder comes after the quotient, and both fail for the same divisor. -/
theorem checkedDivRem_eq_ite (a b : U128) :
    a.checkedDivRem b =
      if b.isZero then .error .divisionByZero
      else .ok (⟨a.bits / b.bits⟩, ⟨a.bits % b.bits⟩) := by
  rw [checkedDivRem, checkedDivRemOn, checkedDivOn, checkedRemOn]
  split
  · rfl
  · rfl

/-! ### Carrying arithmetic -/

/-- The last 128 bits of the sum, and whether it has more. -/
def addWithCarry (a b : U128) : U128 × Bool :=
  (⟨a.bits + b.bits⟩, decide (2 ^ (128 : Nat) ≤ a.toNat + b.toNat))

/-- The difference modulo `2 ^ 128`, and whether it is negative. -/
def subWithBorrow (a b : U128) : U128 × Bool :=
  (⟨a.bits - b.bits⟩, decide (a.toNat < b.toNat))

/-! ### Bits -/

def and (a b : U128) : U128 := ⟨a.bits &&& b.bits⟩

def or (a b : U128) : U128 := ⟨a.bits ||| b.bits⟩

def xor (a b : U128) : U128 := ⟨a.bits ^^^ b.bits⟩

/-! ### Text -/

/-- The decimal numeral. -/
def toDecimal (a : U128) : String := Decimal.write a.toNat

instance : Inspect U128 := ⟨fun a => .text ("U128(" ++ a.toDecimal ++ ")")⟩

end U128

end FieldWords
