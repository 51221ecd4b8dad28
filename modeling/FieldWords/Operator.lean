import FieldWords.Felt.Basic
import FieldWords.Panic.Run
import FieldWords.U128.Basic
import FieldWords.U256.Arithmetic

/-!
# Operators

The binary operators of the three kinds of number. Operators on integers exist in two forms: the
checked one returns its fault, and the raising one raises it. Operators on field elements have no
faults; they would unwind with plain text if an operation on words failed. Negation ignores its
second operand.
-/

namespace FieldWords

/-- The operators on checked integers. -/
inductive IntegerOp where
  | add
  | sub
  | mul
  | div
  | rem
  | and
  | or
  | xor
  deriving DecidableEq, Repr

/-- The operators on field elements. -/
inductive FieldOp where
  | add
  | sub
  | mul
  | neg
  deriving DecidableEq, Repr

/-- Numbers with a family of operators that may be at fault. Unless said otherwise the raising form
raises the fault of the checked one. -/
class Operators (ω α : Type) where
  checked : ω → α → α → Except Fault α
  raising : ω → α → α → Panic.Run α := fun op a b => .ofChecked (checked op a b)

instance : Operators IntegerOp U128 where
  checked
    | .add, a, b => a.checkedAdd b
    | .sub, a, b => a.checkedSub b
    | .mul, a, b => a.checkedMul b
    | .div, a, b => a.checkedDiv b
    | .rem, a, b => a.checkedRem b
    | .and, a, b => .ok (a.and b)
    | .or, a, b => .ok (a.or b)
    | .xor, a, b => .ok (a.xor b)

instance : Operators IntegerOp U256 where
  checked
    | .add, a, b => a.checkedAdd b
    | .sub, a, b => a.checkedSub b
    | .mul, a, b => a.checkedMul b
    | .div, a, b => a.checkedDiv b
    | .rem, a, b => a.checkedRem b
    | .and, a, b => .ok (a.and b)
    | .or, a, b => .ok (a.or b)
    | .xor, a, b => .ok (a.xor b)

/-- With what text an operation on words unwinds that does not fit. -/
def wordOverflow : String := "arithmetic operation overflow"

instance : Operators FieldOp Felt where
  checked
    | .add, a, b => .ok (a + b)
    | .sub, a, b => .ok (a - b)
    | .mul, a, b => .ok (a * b)
    | .neg, a, _ => .ok (-a)
  raising
    | .add, a, b => .orUnwind wordOverflow (a.add? b)
    | .sub, a, b => .orUnwind wordOverflow (a.sub? b)
    | .mul, a, b => pure (a * b)
    | .neg, a, _ => .orUnwind wordOverflow a.neg?

end FieldWords
