/-!
# Faults

A fault is a broken invariant of a checked operation. Arithmetic faults name the operation that
met them; overflow and underflow read the same in a message and differ only as values.
-/

namespace FieldWords

/-- What went wrong in a checked operation. -/
inductive Fault where
  | overflow (tag : String)
  | underflow (tag : String)
  | divisionByZero
  | assertion (message : String)
  | indexOutOfBounds (index length : Nat)
  deriving DecidableEq, Repr

namespace Fault

/-- The short diagnostic of a fault. -/
def message : Fault → String
  | .overflow tag => tag ++ " Overflow"
  | .underflow tag => tag ++ " Overflow"
  | .divisionByZero => "Division by 0"
  | .assertion message => message
  | .indexOutOfBounds _ _ => "Index out of bounds"

end Fault

end FieldWords
