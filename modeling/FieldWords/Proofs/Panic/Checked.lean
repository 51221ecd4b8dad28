import FieldWords.Operator

/-!
# Raised faults

Raising a checked result turns what returns a fault into what unwinds with its payload. It respects
sequencing (`ofChecked_bind`), so a computation made of raising steps is the raised form of the
computation made of the checked ones; a catch around it shows the value or the payload of the fault,
and one event for the fault.
-/

namespace FieldWords

namespace Panic.Run

variable {α β : Type}

@[simp] theorem ofChecked_ok (a : α) : ofChecked (.ok a) = pure a := rfl

@[simp] theorem ofChecked_error (fault : Fault) :
    (ofChecked (.error fault) : Run α) = raise fault :=
  rfl

/-- Only the first fault is raised, as only the first one is returned. -/
theorem ofChecked_bind (r : Except Fault α) (f : α → Except Fault β) :
    ofChecked (r >>= f) = ofChecked r >>= fun a => ofChecked (f a) := by
  cases r with
  | error fault => rfl
  | ok a => exact (pure_bind a fun a => ofChecked (f a)).symm

/-- An assertion is a checked result without a value. -/
theorem assert_eq_ofChecked (condition : Prop) [Decidable condition] (message : String) :
    assert condition message =
      ofChecked (if condition then .ok () else .error (.assertion message)) := by
  by_cases h : condition
  · simp [assert, h]
  · simp [assert, h]

/-! ### Catches -/

@[simp] theorem caught_pure (a : α) : (pure a : Run α).caught = pure (.ok a) := rfl

@[simp] theorem caught_raise (fault : Fault) :
    (raise fault : Run α).caught = ⟨.ok (.error (.ofFault fault)), [.raising (.ofFault fault)]⟩ :=
  rfl

end Panic.Run

/-- Numbers whose raising operators raise exactly the faults of the checked ones. -/
class RaisesFaults (ω α : Type) [Operators ω α] : Prop where
  raising_eq (op : ω) (a b : α) :
    Operators.raising op a b = Panic.Run.ofChecked (Operators.checked op a b)

namespace RaisesFaults

variable {ω α : Type} [Operators ω α] [RaisesFaults ω α] {op : ω} {a b v : α} {fault : Fault}

theorem raising_of_ok (h : Operators.checked op a b = .ok v) :
    Operators.raising op a b = pure v := by
  rw [raising_eq, h, Panic.Run.ofChecked_ok]

theorem raising_of_error (h : Operators.checked op a b = .error fault) :
    Operators.raising op a b = Panic.Run.raise fault := by
  rw [raising_eq, h, Panic.Run.ofChecked_error]

end RaisesFaults

instance : RaisesFaults IntegerOp U128 := ⟨fun _ _ _ => rfl⟩

instance : RaisesFaults IntegerOp U256 := ⟨fun _ _ _ => rfl⟩

/-- Elements have no faults to raise, and no operation on words unwinds in their place. -/
instance : RaisesFaults FieldOp Felt where
  raising_eq op a b := by
    cases op with
    | add => exact congrArg (Panic.Run.orUnwind wordOverflow) (Felt.add?_eq_add a b)
    | sub => exact congrArg (Panic.Run.orUnwind wordOverflow) (Felt.sub?_eq_sub a b)
    | mul => rfl
    | neg => exact congrArg (Panic.Run.orUnwind wordOverflow) (Felt.neg?_eq_neg a)

end FieldWords
