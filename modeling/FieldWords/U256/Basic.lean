import FieldWords.U128.Basic

/-!
# 256-bit integers

An unsigned integer below `2 ^ 256` is a high and a low limb of 128 bits. Integers are ordered by
the high limb and then the low one, and bit operations work on each limb by itself.
-/

-- Powers of numbers are those of `Nat` itself.
attribute [local instance (5000)] instPowNat

namespace FieldWords

/-- An unsigned integer of 256 bits, as `high * 2 ^ 128 + low`. -/
structure U256 where
  high : U128
  low : U128
  deriving DecidableEq

namespace U256

/-- The integer itself. -/
def toNat (a : U256) : Nat := a.high.toNat * 2 ^ (128 : Nat) + a.low.toNat

theorem toNat_lt (a : U256) : a.toNat < 2 ^ (256 : Nat) := by
  have hh := a.high.toNat_lt
  have hl := a.low.toNat_lt
  simp only [toNat]
  omega

theorem toNat_injective {a b : U256} (h : a.toNat = b.toNat) : a = b := by
  have ha := a.low.toNat_lt
  have hb := b.low.toNat_lt
  cases a; cases b
  simp only [toNat] at h ha hb
  rw [U256.mk.injEq, ← U128.toNat_inj, ← U128.toNat_inj]
  omega

theorem toNat_inj {a b : U256} : a.toNat = b.toNat ↔ a = b :=
  ⟨toNat_injective, fun h => h ▸ rfl⟩

/-- The last 256 bits of a number. -/
def ofNat (n : Nat) : U256 := ⟨U128.ofNat (n / 2 ^ (128 : Nat)), U128.ofNat n⟩

@[simp] theorem toNat_ofNat (n : Nat) : (ofNat n).toNat = n % 2 ^ (256 : Nat) := by
  simp only [ofNat, toNat, U128.toNat_ofNat]
  omega

@[simp] theorem ofNat_toNat (a : U256) : ofNat a.toNat = a :=
  toNat_injective (by rw [toNat_ofNat, Nat.mod_eq_of_lt a.toNat_lt])

/-- A single limb. -/
def ofU128 (low : U128) : U256 := ⟨U128.zero, low⟩

def zero : U256 := ⟨U128.zero, U128.zero⟩

def one : U256 := ⟨U128.zero, U128.one⟩

/-- The greatest integer, `2 ^ 256 - 1`. -/
def max : U256 := ⟨U128.max, U128.max⟩

instance : Inhabited U256 := ⟨zero⟩

def isZero (a : U256) : Bool := a.high.isZero && a.low.isZero

instance : Ord U256 :=
  ⟨fun a b => (compare a.high b.high).then (compare a.low b.low)⟩

/-! ### Bits -/

def and (a b : U256) : U256 := ⟨a.high.and b.high, a.low.and b.low⟩

def or (a b : U256) : U256 := ⟨a.high.or b.high, a.low.or b.low⟩

def xor (a b : U256) : U256 := ⟨a.high.xor b.high, a.low.xor b.low⟩

/-! ### Text -/

/-- The decimal numeral. -/
def toDecimal (a : U256) : String := Decimal.write a.toNat

instance : Inspect U256 := ⟨fun a =>
  .record "U256" [("high", .text a.high.toDecimal), ("low", .text a.low.toDecimal)]⟩

end U256

end FieldWords
