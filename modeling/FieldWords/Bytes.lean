/-!
# Byte strings as numbers

A byte string is read in base 256, most significant byte first. Written with a fixed number of
bytes, a number keeps its value modulo that power of 256 (`value_ofNat`), and a byte string is
the only one of its length with its value (`ofNat_value`).
-/

-- Powers of numbers are those of `Nat` itself.
attribute [local instance (5000)] instPowNat

namespace FieldWords.Bytes

/-- The number that bytes write in base 256, most significant byte first. -/
def value : List UInt8 → Nat
  | [] => 0
  | b :: bs => b.toNat * 256 ^ bs.length + value bs

@[simp] theorem value_nil : value [] = 0 := rfl

@[simp] theorem value_cons (b : UInt8) (bs : List UInt8) :
    value (b :: bs) = b.toNat * 256 ^ bs.length + value bs := rfl

/-- The value of a concatenation, by the length of its second part. -/
theorem value_append (as bs : List UInt8) :
    value (as ++ bs) = value as * 256 ^ bs.length + value bs := by
  induction as with
  | nil => simp
  | cons a as ih => simp [ih, Nat.pow_add, Nat.add_mul, Nat.mul_assoc, Nat.add_assoc]

/-- `n` bytes write a number below `256 ^ n`. -/
theorem value_lt (bs : List UInt8) : value bs < 256 ^ bs.length := by
  induction bs with
  | nil => simp
  | cons b bs ih =>
    have hb : b.toNat + 1 ≤ 256 := b.toNat_lt
    calc value (b :: bs) < (b.toNat + 1) * 256 ^ bs.length := by
          rw [value_cons, Nat.add_mul, Nat.one_mul]; omega
      _ ≤ 256 * 256 ^ bs.length := Nat.mul_le_mul_right _ hb
      _ = 256 ^ (b :: bs).length := by rw [List.length_cons, Nat.pow_succ, Nat.mul_comm]

/-- The last `width` base-256 digits of a number, most significant first. -/
def ofNat : Nat → Nat → List UInt8
  | 0, _ => []
  | width + 1, n => UInt8.ofNat (n / 256 ^ width) :: ofNat width n

@[simp] theorem length_ofNat (width n : Nat) : (ofNat width n).length = width := by
  induction width with
  | zero => rfl
  | succ width ih => simp [ofNat, ih]

/-- Reading what `ofNat` writes gives the number back, up to the digits left out. -/
theorem value_ofNat (width n : Nat) : value (ofNat width n) = n % 256 ^ width := by
  induction width with
  | zero => simp [ofNat, Nat.mod_one]
  | succ width ih =>
    rw [ofNat, value_cons, length_ofNat, ih, UInt8.toNat_ofNat', Nat.pow_succ 256,
      Nat.mod_mul (x := n), Nat.add_comm, Nat.mul_comm]

theorem value_ofNat_of_lt {width n : Nat} (h : n < 256 ^ width) :
    value (ofNat width n) = n := by
  rw [value_ofNat, Nat.mod_eq_of_lt h]

/-- Digits further up do not show. -/
theorem ofNat_add_mul (width n k : Nat) : ofNat width (n + 256 ^ width * k) = ofNat width n := by
  induction width generalizing k with
  | zero => rfl
  | succ width ih =>
    have hk : n + 256 ^ (width + 1) * k = n + 256 ^ width * (256 * k) := by
      rw [Nat.pow_succ, Nat.mul_assoc]
    have hb : UInt8.ofNat (n / 256 ^ width + 256 * k) = UInt8.ofNat (n / 256 ^ width) :=
      UInt8.toNat_inj.mp (by simp [UInt8.toNat_ofNat'])
    rw [ofNat, ofNat, hk, ih, Nat.add_mul_div_left _ _ (Nat.pow_pos (by decide)), hb]

/-- A byte string is the only one of its length with its value. -/
theorem ofNat_value (bs : List UInt8) : ofNat bs.length (value bs) = bs := by
  induction bs with
  | nil => rfl
  | cons b bs ih =>
    have h : value (b :: bs) = value bs + 256 ^ bs.length * b.toNat := by
      rw [value_cons, Nat.add_comm, Nat.mul_comm]
    have hd : (value bs + 256 ^ bs.length * b.toNat) / 256 ^ bs.length = b.toNat := by
      rw [Nat.add_mul_div_left _ _ (Nat.pow_pos (by decide)), Nat.div_eq_of_lt (value_lt bs),
        Nat.zero_add]
    rw [List.length_cons, ofNat, h, ofNat_add_mul, ih, hd, UInt8.ofNat_toNat]

theorem value_injective {as bs : List UInt8} (hl : as.length = bs.length)
    (hv : value as = value bs) : as = bs := by
  rw [← ofNat_value as, ← ofNat_value bs, hl, hv]

/-! ### Leading zeros -/

/-- The significant bytes: leading zero bytes are dropped. -/
def trim (bs : List UInt8) : List UInt8 := bs.dropWhile (· == 0)

@[simp] theorem trim_nil : trim [] = [] := rfl

@[simp] theorem trim_zero_cons (bs : List UInt8) : trim (0 :: bs) = trim bs := rfl

theorem trim_cons_of_ne {b : UInt8} (h : b ≠ 0) (bs : List UInt8) : trim (b :: bs) = b :: bs := by
  simp [trim, h]

/-- Leading zeros carry no value. -/
@[simp] theorem value_trim (bs : List UInt8) : value (trim bs) = value bs := by
  induction bs with
  | nil => rfl
  | cons b bs ih =>
    by_cases h : b = 0
    · subst h; simp [ih]
    · rw [trim_cons_of_ne h]

theorem length_trim_le (bs : List UInt8) : (trim bs).length ≤ bs.length :=
  (List.dropWhile_sublist _).length_le

/-- The fewest bytes that write a number below `256 ^ width`. -/
def minimal (width n : Nat) : List UInt8 := trim (ofNat width n)

@[simp] theorem value_minimal (width n : Nat) : value (minimal width n) = n % 256 ^ width := by
  rw [minimal, value_trim, value_ofNat]

/-! ### Groups -/

/-- The first `count` groups of `size` items each. -/
def groups {α : Type} (size : Nat) : Nat → List α → List (List α)
  | 0, _ => []
  | count + 1, xs => xs.take size :: groups size count (xs.drop size)

@[simp] theorem length_groups {α : Type} (size count : Nat) (xs : List α) :
    (groups size count xs).length = count := by
  induction count generalizing xs with
  | zero => rfl
  | succ count ih => simp [groups, ih]

/-- The groups hold the items of the list, in order. -/
theorem flatten_groups {α : Type} (size count : Nat) (xs : List α) :
    (groups size count xs).flatten = xs.take (count * size) := by
  induction count generalizing xs with
  | zero => simp [groups]
  | succ count ih =>
    rw [groups, List.flatten_cons, ih, Nat.succ_mul, Nat.add_comm (count * size), List.take_add]

end FieldWords.Bytes
