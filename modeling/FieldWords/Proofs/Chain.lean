import Mathlib.Data.List.Basic
import FieldWords.Assignment
import FieldWords.Proofs.Panic.Checked

/-!
# Chains of assignments

An assignment to a variable is all or nothing: it writes the result of the checked operator
(`Assigning.on_caught_assign_ok`), or it raises the fault and has written nothing
(`Assigning.on_caught_assign_error`). A chain is what its assignments to one variable reply
(`Assigning.on_attemptAll`), and it goes through the states of the fold of the checked operators
that keeps the old state at a fault (`Chain.run_eq`).
-/

namespace FieldWords

variable {ω α : Type} [Operators ω α] {a v : α} {s : Chain.Step ω α} {f : Fault}

namespace Chain

/-! ### Steps of checked operators -/

/-- The state after a step of checked operators: a fault keeps the old one. -/
def next (a : α) (s : Step ω α) : α :=
  match Operators.checked s.op a (s.operand.getD a) with
  | .ok v => v
  | .error _ => a

/-- The reply to a step of checked operators: the payload of a fault comes with the old state. -/
def reply (a : α) (s : Step ω α) : Reply α :=
  match Operators.checked s.op a (s.operand.getD a) with
  | .ok v => .moved v
  | .error f => .raised (.ofFault f) a

/-- What is logged at a step of checked operators. -/
def log (a : α) (s : Step ω α) : List Panic.Event :=
  match Operators.checked s.op a (s.operand.getD a) with
  | .ok _ => []
  | .error f => [.raising (.ofFault f)]

theorem state_reply (a : α) (s : Step ω α) : (reply a s).state = next a s := by
  unfold reply next
  split
  · rfl
  · rfl

end Chain

variable [RaisesFaults ω α]

namespace Chain

theorem step_ok (h : Operators.checked s.op a (s.operand.getD a) = .ok v) :
    step a s = pure (.moved v) := by
  rw [step, RaisesFaults.raising_of_ok h, Panic.Run.caught_pure, pure_bind]

theorem step_error (h : Operators.checked s.op a (s.operand.getD a) = .error f) :
    step a s = ⟨.ok (.raised (.ofFault f) a), [.raising (.ofFault f)]⟩ := by
  rw [step, RaisesFaults.raising_of_error h, Panic.Run.caught_raise]
  rfl

theorem step_eq (a : α) (s : Step ω α) : step a s = ⟨.ok (reply a s), log a s⟩ := by
  cases h : Operators.checked s.op a (s.operand.getD a) with
  | ok v => rw [step_ok h, reply, log, h, Panic.Run.pure_eq]
  | error f => rw [step_error h, reply, log, h]

/-- A chain replies to each step from the state that the fold has reached. -/
theorem run_eq (a : α) (steps : List (Step ω α)) :
    run a steps = ⟨.ok (List.zipWith reply (steps.scanl next a) steps),
      (List.zipWith log (steps.scanl next a) steps).flatten⟩ := by
  induction steps generalizing a with
  | nil => simp [run, Panic.Run.pure_eq]
  | cons s rest ih =>
    rw [run, step_eq, Panic.Run.ok_bind, state_reply, ih, Panic.Run.ok_bind]
    simp [Panic.Run.pure_eq]

end Chain

/-! ### Assignments to a variable -/

namespace Assigning

theorem on_assign_ok (h : Operators.checked s.op a (s.operand.getD a) = .ok v) :
    (assign s).on a = (pure (), v) := by
  have hcompute : (compute (pure v) : Assigning α α).on a = (⟨.ok v, []⟩, a) := rfl
  rw [assign, on_read_bind, RaisesFaults.raising_of_ok h, on_bind_of_ok hcompute]
  rfl

theorem on_assign_error (h : Operators.checked s.op a (s.operand.getD a) = .error f) :
    (assign s).on a = (Panic.Run.raise f, a) := by
  have hcompute : (compute (Panic.Run.raise f) : Assigning α α).on a =
    (⟨.error (.payload (.ofFault f)), [.raising (.ofFault f)]⟩, a) := rfl
  -- the operator unwinds before anything is written
  rw [assign, on_read_bind, RaisesFaults.raising_of_error h, on_bind_of_error hcompute]
  rfl

theorem on_caught_assign_ok (h : Operators.checked s.op a (s.operand.getD a) = .ok v) :
    (assign s).caught.on a = (pure (.ok ()), v) := by
  rw [on_caught, on_assign_ok h, Panic.Run.caught_pure]

theorem on_caught_assign_error (h : Operators.checked s.op a (s.operand.getD a) = .error f) :
    (assign s).caught.on a = (⟨.ok (.error (.ofFault f)), [.raising (.ofFault f)]⟩, a) := by
  rw [on_caught, on_assign_error h, Panic.Run.caught_raise]

/-- What an assignment leaves in the variable and replies is what the step of a chain replies. -/
theorem on_attempt (a : α) (s : Chain.Step ω α) :
    (attempt s).on a = (Chain.step a s, Chain.next a s) := by
  rw [Chain.step_eq]
  cases h : Operators.checked s.op a (s.operand.getD a) with
  | ok v =>
    rw [attempt, on_bind_of_ok (on_caught_assign_ok h), Chain.reply, Chain.log, Chain.next, h]
    rfl
  | error f =>
    rw [attempt, on_bind_of_ok (on_caught_assign_error h), Chain.reply, Chain.log, Chain.next, h]
    rfl

/-- A chain is what its assignments to one variable reply. -/
theorem on_attemptAll (a : α) (steps : List (Chain.Step ω α)) :
    (attemptAll steps).on a = (Chain.run a steps, steps.foldl Chain.next a) := by
  induction steps generalizing a with
  | nil => rfl
  | cons s rest ih =>
    have hfirst := on_attempt a s
    have hrest := ih (Chain.next a s)
    rw [Chain.step_eq] at hfirst
    rw [Chain.run_eq] at hrest
    rw [attemptAll, on_bind_of_ok hfirst, on_bind_of_ok hrest, Chain.run_eq]
    simp [Panic.Run.pure_eq]

end Assigning

/-! ### All or nothing -/

/-- Assignments with checked operators: a step that the checked operator computes moves the variable
to its value, and a step at fault replies with the payload of the fault and leaves the variable as
it was. A chain goes on either way, and ends where the fold of the checked operators ends. -/
structure Transactional (ω α : Type) [Operators ω α] : Prop where
  ok (a v : α) (s : Chain.Step ω α) : Operators.checked s.op a (s.operand.getD a) = .ok v →
    (Assigning.assign s).caught.on a = (⟨.ok (.ok ()), []⟩, v) ∧
      Chain.step a s = ⟨.ok (.moved v), []⟩
  error (a : α) (f : Fault) (s : Chain.Step ω α) :
    Operators.checked s.op a (s.operand.getD a) = .error f →
      (Assigning.assign s).caught.on a =
        (⟨.ok (.error (.ofFault f)), [.raising (.ofFault f)]⟩, a) ∧
      Chain.step a s = ⟨.ok (.raised (.ofFault f) a), [.raising (.ofFault f)]⟩
  run (a : α) (steps : List (Chain.Step ω α)) : Chain.run a steps =
    ⟨.ok (List.zipWith Chain.reply (steps.scanl Chain.next a) steps),
      (List.zipWith Chain.log (steps.scanl Chain.next a) steps).flatten⟩
  final (a : α) (steps : List (Chain.Step ω α)) :
    (Assigning.attemptAll steps).on a = (Chain.run a steps, steps.foldl Chain.next a)

theorem transactional : Transactional ω α where
  ok _ _ _ h := ⟨Assigning.on_caught_assign_ok h, Chain.step_ok h⟩
  error _ _ _ h := ⟨Assigning.on_caught_assign_error h, Chain.step_error h⟩
  run := Chain.run_eq
  final := Assigning.on_attemptAll

/-- After an assignment to a variable of two limbs both limbs are the old ones, or both are those of
the checked operator's value. -/
theorem limbs_on_caught_assign (a : U256) (s : Chain.Step IntegerOp U256) :
    ∃ m held, (Assigning.assign s).caught.on a = (m, held) ∧
      ((held.high = a.high ∧ held.low = a.low) ∨
        ∃ v, Operators.checked s.op a (s.operand.getD a) = .ok v ∧
          held.high = v.high ∧ held.low = v.low) := by
  cases h : Operators.checked s.op a (s.operand.getD a) with
  | ok v => exact ⟨_, v, Assigning.on_caught_assign_ok h, Or.inr ⟨v, rfl, rfl, rfl⟩⟩
  | error f => exact ⟨_, a, Assigning.on_caught_assign_error h, Or.inl ⟨rfl, rfl⟩⟩

/-- **Assignments are transactions.** In every chain of assignments to a checked integer, each
inside its own catch, a step at fault replies with the payload of the fault and leaves the integer
as it was, any other step moves it to the value of the checked operator, and the chain ends where the
fold of the checked operators ends that keeps the old state at a fault. Of an integer of two limbs
no limb is written without the other. -/
theorem assignments_transactional :
    Transactional IntegerOp U128 ∧ Transactional IntegerOp U256 ∧
    ∀ (a : U256) (s : Chain.Step IntegerOp U256),
      ∃ m held, (Assigning.assign s).caught.on a = (m, held) ∧
        ((held.high = a.high ∧ held.low = a.low) ∨
          ∃ v, Operators.checked s.op a (s.operand.getD a) = .ok v ∧
            held.high = v.high ∧ held.low = v.low) :=
  ⟨transactional, transactional, limbs_on_caught_assign⟩

/-- A sum whose low limb wraps before the high limb overflows, a difference of the state with
itself, a difference below zero, and a carry between the limbs. -/
theorem assignments_transactional_across_limbs :
    let steps : List (Chain.Step IntegerOp U256) :=
      [⟨.add, some U256.one⟩, ⟨.sub, none⟩, ⟨.sub, some U256.one⟩,
        ⟨.add, some ⟨U128.zero, U128.max⟩⟩, ⟨.add, some U256.one⟩]
    Operators.checked IntegerOp.add U256.max U256.one = .error (.overflow "u256_add") ∧
      Chain.step U256.max ⟨IntegerOp.add, some U256.one⟩ =
        ⟨.ok (.raised (.ofFault (.overflow "u256_add")) U256.max),
          [.raising (.ofFault (.overflow "u256_add"))]⟩ ∧
      ((Assigning.attemptAll steps).on U256.max).2 = ⟨U128.one, U128.zero⟩ := by
  intro steps
  have hfault : Operators.checked IntegerOp.add U256.max U256.one =
      .error (.overflow "u256_add") := by decide
  obtain ⟨-, h256, -⟩ := assignments_transactional
  refine ⟨hfault, (h256.error U256.max _ ⟨.add, some U256.one⟩ hfault).2, ?_⟩
  rw [h256.final]
  decide

end FieldWords
