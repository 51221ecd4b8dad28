import FieldWords.Chain
import FieldWords.Expr
import FieldWords.Proofs.Felt.Residue
import FieldWords.Proofs.Panic.Checked

/-!
# Field arithmetic against the integers

An expression over field elements, and a chain of assignments to one, can be read over the integers
instead: each literal is its representative and nothing is reduced on the way. Evaluation over the
field never unwinds and has the integer reduced once, at the end. The invariant is that every value
met on the way lies in the residue class of its integer (`raising_residue` for one operator,
`Expr.run_residue` for an expression, `Chain.run_residue` for a chain).
-/

namespace FieldWords

open Felt

/-! ### The integer reading -/

/-- The operator on integers. -/
def FieldOp.onIntegers : FieldOp → ℤ → ℤ → ℤ
  | .add, x, y => x + y
  | .sub, x, y => x - y
  | .mul, x, y => x * y
  | .neg, x, _ => -x

namespace Expr

/-- Whether an expression is made of operators alone: it asserts nothing. -/
def IsArithmetic {ω α : Type} : Expr ω α → Prop
  | .literal _ => True
  | .binary _ left right => left.IsArithmetic ∧ right.IsArithmetic
  | .doubled _ operand => operand.IsArithmetic
  | .assertEq _ _ _ => False

/-- The value of an expression over the integers. -/
def onIntegers : Expr FieldOp Felt → ℤ
  | .literal a => a.val
  | .binary op left right => op.onIntegers left.onIntegers right.onIntegers
  | .doubled op operand => op.onIntegers operand.onIntegers operand.onIntegers
  | .assertEq left _ _ => left.onIntegers

end Expr

namespace Chain

/-- One step over the integers. -/
def stepOnIntegers (x : ℤ) (s : Step FieldOp Felt) : ℤ :=
  s.op.onIntegers x ((s.operand.map fun b => (b.val : ℤ)).getD x)

/-- The states of a chain over the integers, after each step. -/
def onIntegers (x : ℤ) : List (Step FieldOp Felt) → List ℤ
  | [] => []
  | s :: rest => stepOnIntegers x s :: onIntegers (stepOnIntegers x s) rest

end Chain

/-! ### The invariant -/

/-- An operator on elements does not unwind, and stays in the residue class of its integer. -/
theorem raising_residue (op : FieldOp) {a b : Felt} {x y : ℤ} (ha : a.toZMod = x)
    (hb : b.toZMod = y) :
    ∃ c, Operators.raising op a b = pure c ∧ c.toZMod = op.onIntegers x y := by
  cases op with
  | add =>
    refine ⟨a + b, RaisesFaults.raising_of_ok rfl, ?_⟩
    rw [toZMod_add, ha, hb, FieldOp.onIntegers, Int.cast_add]
  | sub =>
    refine ⟨a - b, RaisesFaults.raising_of_ok rfl, ?_⟩
    rw [toZMod_sub, ha, hb, FieldOp.onIntegers, Int.cast_sub]
  | mul =>
    refine ⟨a * b, RaisesFaults.raising_of_ok rfl, ?_⟩
    rw [toZMod_mul, ha, hb, FieldOp.onIntegers, Int.cast_mul]
  | neg =>
    refine ⟨-a, RaisesFaults.raising_of_ok rfl, ?_⟩
    rw [toZMod_neg, ha, FieldOp.onIntegers, Int.cast_neg]

/-- The residue class of a representative is that of the integer. -/
theorem toZMod_eq_intCast (a : Felt) : a.toZMod = ((a.val : ℤ) : ZMod prime) :=
  (Int.cast_natCast a.val).symm

theorem Expr.run_residue (e : Expr FieldOp Felt) (he : e.IsArithmetic) :
    ∃ v, e.run = pure v ∧ v.toZMod = e.onIntegers := by
  induction e with
  | literal a => exact ⟨a, rfl, toZMod_eq_intCast a⟩
  | binary op left right ihl ihr =>
    obtain ⟨a, hla, ha⟩ := ihl he.1
    obtain ⟨b, hrb, hb⟩ := ihr he.2
    obtain ⟨c, hc, hcz⟩ := raising_residue op ha hb
    refine ⟨c, ?_, hcz⟩
    rw [Expr.run, hla, hrb, pure_bind, pure_bind, hc]
  | doubled op operand ih =>
    obtain ⟨a, hla, ha⟩ := ih he
    obtain ⟨c, hc, hcz⟩ := raising_residue op ha ha
    refine ⟨c, ?_, hcz⟩
    rw [Expr.run, hla, pure_bind, hc]
  | assertEq => exact he.elim

namespace Chain

/-- A step of a chain moves to an element in the residue class of its integer. -/
theorem step_residue (s : Step FieldOp Felt) {a : Felt} {x : ℤ} (ha : a.toZMod = x) :
    ∃ c, step a s = pure (.moved c) ∧ c.toZMod = stepOnIntegers x s := by
  have hb : (s.operand.getD a).toZMod = ((s.operand.map fun b => (b.val : ℤ)).getD x : ℤ) := by
    cases s.operand with
    | none => exact ha
    | some b => exact toZMod_eq_intCast b
  obtain ⟨c, hc, hcz⟩ := raising_residue s.op ha hb
  refine ⟨c, ?_, hcz⟩
  rw [step, hc]
  rfl

theorem run_residue (steps : List (Step FieldOp Felt)) {a : Felt} {x : ℤ}
    (ha : a.toZMod = x) :
    ∃ states : List Felt, run a steps = pure (states.map .moved) ∧
      states.map (fun v => (v.val : ℤ)) = (onIntegers x steps).map fun z => z % (prime : ℤ) := by
  induction steps generalizing a x with
  | nil => exact ⟨[], rfl, rfl⟩
  | cons s rest ih =>
    obtain ⟨c, hc, hcz⟩ := step_residue s ha
    obtain ⟨states, hrun, hvals⟩ := ih hcz
    refine ⟨c :: states, ?_, ?_⟩
    · rw [run, hc, pure_bind, Reply.state, hrun, pure_bind, List.map_cons]
    · rw [List.map_cons, onIntegers, List.map_cons, hvals, val_eq_emod hcz]

end Chain

/-! ### One reduction at the end -/

theorem isSome_addMod_word (a b : Felt) : (Modular.addMod a.word b.word).isSome := by
  rw [word, word, Modular.addMod_word a.isLt b.isLt]
  rfl

theorem isSome_subMod_word (a b : Felt) : (Modular.subMod a.word b.word).isSome := by
  rw [word, word, Modular.subMod_word a.isLt b.isLt]
  rfl

/-- **Arithmetic is exact up to one reduction.** No expression and no chain of assignments unwinds
or logs anything; the value of an expression, and every state of a chain, is the integer that the
same operations have without any reduction, reduced once. In particular no sum and no difference of
words inside an operator leaves its 256 bits. -/
theorem arithmetic_eq_integers_mod_prime :
    (∀ e : Expr FieldOp Felt, e.IsArithmetic →
      ∃ v, e.run = pure v ∧ (v.val : ℤ) = e.onIntegers % prime) ∧
    (∀ (a : Felt) (steps : List (Chain.Step FieldOp Felt)),
      ∃ states : List Felt, Chain.run a steps = pure (states.map .moved) ∧
        states.map (fun v => (v.val : ℤ)) =
          (Chain.onIntegers a.val steps).map fun z => z % (prime : ℤ)) ∧
    ∀ a b : Felt,
      (Modular.addMod a.word b.word).isSome ∧ (Modular.subMod a.word b.word).isSome := by
  refine ⟨fun e he => ?_, fun a steps => ?_, fun a b => ?_⟩
  · obtain ⟨v, hv, hz⟩ := e.run_residue he
    exact ⟨v, hv, val_eq_emod hz⟩
  · exact Chain.run_residue steps (toZMod_eq_intCast a)
  · exact ⟨isSome_addMod_word a b, isSome_subMod_word a b⟩

/-- The sum of the greatest element with itself, times `-5`, less that element: every operator
wraps, and `(-2) * (-5) - (-1)` is left. -/
theorem arithmetic_eq_integers_mod_prime_wrapping :
    let e : Expr FieldOp Felt :=
      .binary .sub
        (.binary .mul (.binary .add (.literal max) (.literal max))
          (.doubled .neg (.literal (ofNat 5))))
        (.literal max)
    e.IsArithmetic ∧ ∃ v, e.run = pure v ∧ v.val = 11 := by
  intro e
  have he : e.IsArithmetic := ⟨⟨⟨trivial, trivial⟩, trivial⟩, trivial⟩
  obtain ⟨v, hv, hval⟩ := arithmetic_eq_integers_mod_prime.1 e he
  have h11 : e.onIntegers % prime = 11 := by decide
  exact ⟨he, v, hv, Int.ofNat_inj.mp (hval.trans h11)⟩

end FieldWords
