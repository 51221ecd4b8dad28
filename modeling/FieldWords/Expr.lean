import FieldWords.Operator

/-!
# Expressions

Expression trees over the operators of a kind of number. An operator evaluates its left operand
first, then the right one, then itself. An expression is evaluated on the panic channel, or with
checked operators; the second evaluation returns the first fault that the first one would raise.
-/

namespace FieldWords

/-- An expression with operators `ω` over literals `α`. In `doubled` one operand serves as both,
and `assertEq` asserts that two values are equal and has the left one. -/
inductive Expr (ω α : Type) where
  | literal (a : α)
  | binary (op : ω) (left right : Expr ω α)
  | doubled (op : ω) (operand : Expr ω α)
  | assertEq (left right : Expr ω α) (message : String)

namespace Expr

variable {ω α : Type} [Operators ω α] [DecidableEq α]

/-- Evaluate on the panic channel. -/
def run : Expr ω α → Panic.Run α
  | .literal a => pure a
  | .binary op left right => do
    let a ← left.run
    let b ← right.run
    Operators.raising op a b
  | .doubled op operand => do
    let a ← operand.run
    Operators.raising op a a
  | .assertEq left right message => do
    let a ← left.run
    let b ← right.run
    Panic.Run.assert (a = b) message
    return a

/-- Evaluate up to the first fault. -/
def check : Expr ω α → Except Fault α
  | .literal a => .ok a
  | .binary op left right =>
    match left.check with
    | .error fault => .error fault
    | .ok a =>
      match right.check with
      | .error fault => .error fault
      | .ok b => Operators.checked op a b
  | .doubled op operand =>
    match operand.check with
    | .error fault => .error fault
    | .ok a => Operators.checked op a a
  | .assertEq left right message =>
    match left.check with
    | .error fault => .error fault
    | .ok a =>
      match right.check with
      | .error fault => .error fault
      | .ok b => if a = b then .ok a else .error (.assertion message)

end Expr

end FieldWords
