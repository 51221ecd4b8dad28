import FieldWords.Expr
import FieldWords.Proofs.Panic.Checked

/-!
# Raising and checked evaluation

An expression over checked integers is evaluated on the panic channel, where an operator at fault
unwinds, or by checked operators, where it returns its fault. The first evaluation is the raised
form of the second (`Expr.run_eq_ofChecked`): both stop at the same operator, with the same fault.
-/

namespace FieldWords.Expr

variable {ω α : Type} [Operators ω α] [DecidableEq α]

/-! ### Checked evaluation step by step -/

theorem check_binary (op : ω) (left right : Expr ω α) :
    (binary op left right).check =
      left.check >>= fun a => right.check >>= fun b => Operators.checked op a b := by
  rw [check]
  cases left.check with
  | error fault => rfl
  | ok a => cases right.check <;> rfl

theorem check_doubled (op : ω) (operand : Expr ω α) :
    (doubled op operand).check = operand.check >>= fun a => Operators.checked op a a := by
  rw [check]
  cases operand.check <;> rfl

theorem check_assertEq (left right : Expr ω α) (message : String) :
    (assertEq left right message).check =
      left.check >>= fun a => right.check >>= fun b =>
        (if a = b then .ok () else .error (.assertion message)) >>= fun _ => .ok a := by
  rw [check]
  cases left.check with
  | error fault => rfl
  | ok a =>
    cases right.check with
    | error fault => rfl
    | ok b =>
      change (if a = b then _ else _) = (if a = b then _ else _) >>= _
      split
      · rfl
      · rfl

/-- Evaluation on the panic channel raises what checked evaluation returns. -/
theorem run_eq_ofChecked [RaisesFaults ω α] (e : Expr ω α) :
    e.run = Panic.Run.ofChecked e.check := by
  induction e with
  | literal a => rfl
  | binary op left right ihl ihr =>
    simp only [run, ihl, ihr, RaisesFaults.raising_eq, check_binary, Panic.Run.ofChecked_bind]
  | doubled op operand ih =>
    simp only [run, ih, RaisesFaults.raising_eq, check_doubled, Panic.Run.ofChecked_bind]
  | assertEq left right message ihl ihr =>
    simp only [run, ihl, ihr, Panic.Run.assert_eq_ofChecked, check_assertEq,
      Panic.Run.ofChecked_bind, Panic.Run.ofChecked_ok]

/-! ### What a catch shows -/

theorem caught_run_of_check_ok [RaisesFaults ω α] {e : Expr ω α} {v : α} (h : e.check = .ok v) :
    e.run.caught = ⟨.ok (.ok v), []⟩ := by
  rw [run_eq_ofChecked, h]
  rfl

theorem caught_run_of_check_error [RaisesFaults ω α] {e : Expr ω α} {f : Fault}
    (h : e.check = .error f) :
    e.run.caught = ⟨.ok (.error (.ofFault f)), [.raising (.ofFault f)]⟩ := by
  rw [run_eq_ofChecked, h]
  rfl

/-- A catch around the evaluation shows the value of the checked evaluation and no event, or the
payload of its fault and one event, which tells the message of the payload and its length. -/
structure CaughtAsChecked (e : Expr ω α) : Prop where
  value_iff (v : α) : e.run.caught = ⟨.ok (.ok v), []⟩ ↔ e.check = .ok v
  fault (f : Fault) : e.check = .error f →
    e.run.caught = ⟨.ok (.error (.ofFault f)), [.raising (.ofFault f)]⟩
  event (f : Fault) : e.check = .error f →
    e.run.caught.events.map (fun event => (event.level, event.fields)) =
      [(.debug, [("message", .text "raising panic"), ("payload", .text (Payload.ofFault f).message),
        ("len", .count (Payload.ofFault f).values.length)])]

theorem caughtAsChecked [RaisesFaults ω α] (e : Expr ω α) : e.CaughtAsChecked where
  value_iff v := by
    constructor
    · intro hcaught
      cases hcheck : e.check with
      | ok a =>
        rw [caught_run_of_check_ok hcheck] at hcaught
        cases hcaught
        rfl
      | error f =>
        rw [caught_run_of_check_error hcheck] at hcaught
        cases hcaught
    · exact caught_run_of_check_ok
  fault _ := caught_run_of_check_error
  event f h := by
    rw [caught_run_of_check_error h]
    rfl

/-- **Raising and checked evaluation agree.** A catch around an expression over checked integers
answers with a value, and without an event, exactly if checked evaluation has that value; and where
checked evaluation stops at a fault, the catch answers with the payload of this fault, raised once
and logged once. -/
theorem caught_run_agrees_with_check :
    (∀ e : Expr IntegerOp U128, e.CaughtAsChecked) ∧
      ∀ e : Expr IntegerOp U256, e.CaughtAsChecked :=
  ⟨caughtAsChecked, caughtAsChecked⟩

/-- An assertion and two operators fail: the assertion is evaluated first, so its message is raised,
and nothing else is logged. -/
theorem caught_run_agrees_with_check_first_of_three :
    let e : Expr IntegerOp U256 :=
      .binary .add
        (.binary .mul (.assertEq (.literal U256.zero) (.literal U256.one) "m")
          (.doubled .add (.literal U256.max)))
        (.binary .div (.literal U256.one) (.literal U256.zero))
    e.check = .error (.assertion "m") ∧
      e.run.caught = ⟨.ok (.error (.ofFault (.assertion "m"))),
        [.raising (.ofFault (.assertion "m"))]⟩ := by
  intro e
  have hcheck : e.check = .error (.assertion "m") := rfl
  exact ⟨hcheck, (caught_run_agrees_with_check.2 e).fault _ hcheck⟩

end FieldWords.Expr
