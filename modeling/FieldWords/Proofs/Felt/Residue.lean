import Mathlib.Data.ZMod.Basic
import FieldWords.Proofs.Felt.Prime

/-!
# Field elements as residue classes

Every element stands for the residue class of its representative. Different elements stand for
different classes, every class has an element, and the operations of the field are those of the
classes, so equations between elements may be proved in `ZMod prime`.
-/

namespace FieldWords

instance : NeZero prime := ⟨prime_pos.ne'⟩

namespace Felt

/-- The residue class of an element. -/
def toZMod (a : Felt) : ZMod prime := a.val

/-- The element of a residue class. -/
def ofZMod (x : ZMod prime) : Felt := ⟨x.val, x.val_lt⟩

@[simp] theorem toZMod_ofZMod (x : ZMod prime) : (ofZMod x).toZMod = x :=
  ZMod.natCast_zmod_val x

theorem toZMod_injective : Function.Injective toZMod := by
  intro a b h
  apply val_injective
  have hv := congrArg ZMod.val h
  rwa [toZMod, toZMod, ZMod.val_cast_of_lt a.isLt, ZMod.val_cast_of_lt b.isLt] at hv

theorem toZMod_inj {a b : Felt} : a.toZMod = b.toZMod ↔ a = b := toZMod_injective.eq_iff

@[simp] theorem toZMod_ofNat (n : ℕ) : (ofNat n).toZMod = n := by
  rw [toZMod, val_ofNat, ZMod.natCast_mod]

@[simp] theorem toZMod_zero : zero.toZMod = 0 := by simp [zero]

@[simp] theorem toZMod_one : one.toZMod = 1 := by simp [one]

@[simp] theorem toZMod_add (a b : Felt) : (a + b).toZMod = a.toZMod + b.toZMod := by
  rw [toZMod, val_add, ZMod.natCast_mod, Nat.cast_add]
  rfl

@[simp] theorem toZMod_sub (a b : Felt) : (a - b).toZMod = a.toZMod - b.toZMod := by
  rw [toZMod, val_sub, ZMod.natCast_mod, Nat.cast_add, Nat.cast_sub b.isLt.le, ZMod.natCast_self,
    zero_sub, ← sub_eq_add_neg]
  rfl

@[simp] theorem toZMod_mul (a b : Felt) : (a * b).toZMod = a.toZMod * b.toZMod := by
  rw [toZMod, val_mul, ZMod.natCast_mod, Nat.cast_mul]
  rfl

@[simp] theorem toZMod_neg (a : Felt) : (-a).toZMod = -a.toZMod := by
  have h := toZMod_sub zero a
  rwa [toZMod_zero, zero_sub] at h

/-- The representative is what an integer of the class leaves when it is reduced once. -/
theorem val_eq_emod {a : Felt} {z : ℤ} (h : a.toZMod = z) : (a.val : ℤ) = z % prime := by
  have hz : ((a.val : ℤ) : ZMod prime) = z := by rwa [Int.cast_natCast]
  have hm : (a.val : ℤ) % prime = z % prime := (ZMod.intCast_eq_intCast_iff' _ _ _).mp hz
  rw [← hm]
  exact (Int.emod_eq_of_lt (Int.natCast_nonneg _) (Int.ofNat_lt.mpr a.isLt)).symm

end Felt

end FieldWords
