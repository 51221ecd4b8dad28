import FieldWords.Proofs.U128.Arithmetic

/-!
# Native operations never overflow

The operations of a machine on 128-bit words wrap where their result does not fit, or they stop the
program. They are a parameter of the steps that a checked operation takes (`Native`), and a checked
operation is the run of its steps on operations that wrap. On operations that have no result where
they overflow the steps come to the same end (`NeverOverflows`): a test stands before each native
operation that could overflow, or the words that meet in it are too small. For the wide product this
is a bound for each column (`columnsOn_neverOverflows`, `middleOn_neverOverflows`,
`highOn_neverOverflows`).
-/

namespace FieldWords

open WideProduct

namespace Native

/-- The operations have no result that does not fit, and none by a divisor that is zero. -/
def guarded : Native Option where
  add v w := if v.toNat + w.toNat < 2 ^ 128 then some (v + w) else none
  sub v w := if w.toNat ≤ v.toNat then some (v - w) else none
  mul v w := if v.toNat * w.toNat < 2 ^ 128 then some (v * w) else none
  div v w := if w.toNat ≠ 0 then some (v / w) else none
  rem v w := if w.toNat ≠ 0 then some (v % w) else none

end Native

/-- Steps that come to a result on native operations that wrap, and come to it on guarded ones too:
none of them overflows. -/
structure NeverOverflows {α : Type} (steps : ∀ (m : Type → Type) [Monad m], Native m → m α)
    (result : α) : Prop where
  wrapping : steps Id Native.wrapping = pure result
  guarded : steps Option Native.guarded = some result

namespace NeverOverflows

variable {α β : Type} {v w : Word}

theorem of_pure (x : α) : NeverOverflows (fun _ _ _ => pure x) x := ⟨rfl, rfl⟩

/-- Steps one after the other. -/
protected theorem bind {steps : ∀ (m : Type → Type) [Monad m], Native m → m α} {x : α}
    {next : ∀ (m : Type → Type) [Monad m], Native m → α → m β} {y : β}
    (h : NeverOverflows steps x) (hnext : NeverOverflows (fun m _ native => next m native x) y) :
    NeverOverflows (fun m _ native => steps m native >>= next m native) y where
  wrapping := by rw [h.wrapping, pure_bind, hnext.wrapping]
  guarded := by rw [h.guarded, Option.bind_eq_bind, Option.bind_some, hnext.guarded]

/-- Steps behind a test need only be right on their side of it. -/
protected theorem ite {p : Prop} [Decidable p]
    {left right : ∀ (m : Type → Type) [Monad m], Native m → m α} {x y : α}
    (hleft : p → NeverOverflows left x) (hright : ¬ p → NeverOverflows right y) :
    NeverOverflows (fun m _ native => if p then left m native else right m native)
      (if p then x else y) := by
  by_cases h : p
  · simp only [if_pos h]
    exact hleft h
  · simp only [if_neg h]
    exact hright h

theorem add (h : v.toNat + w.toNat < 2 ^ 128) :
    NeverOverflows (fun _ _ native => native.add v w) (v + w) := ⟨rfl, if_pos h⟩

theorem sub (h : w.toNat ≤ v.toNat) :
    NeverOverflows (fun _ _ native => native.sub v w) (v - w) := ⟨rfl, if_pos h⟩

theorem mul (h : v.toNat * w.toNat < 2 ^ 128) :
    NeverOverflows (fun _ _ native => native.mul v w) (v * w) := ⟨rfl, if_pos h⟩

theorem div (h : w.toNat ≠ 0) :
    NeverOverflows (fun _ _ native => native.div v w) (v / w) := ⟨rfl, if_pos h⟩

theorem rem (h : w.toNat ≠ 0) :
    NeverOverflows (fun _ _ native => native.rem v w) (v % w) := ⟨rfl, if_pos h⟩

end NeverOverflows

/-! ### Wide products -/

namespace WideProduct

theorem mul_lt_of_lt {x y : ℕ} (hx : x < 2 ^ 64) (hy : y < 2 ^ 64) : x * y < 2 ^ 128 := by
  have hle := mul_le_of_lt hx hy
  omega

theorem columnsOn_neverOverflows (a b : Word) :
    NeverOverflows (fun _ _ native => columnsOn native a b) (columns a b) := by
  have hal := toNat_lowHalf_lt a
  have hbl := toNat_lowHalf_lt b
  have hah := toNat_highHalf_lt a
  have hbh := toNat_highHalf_lt b
  unfold columnsOn
  exact (NeverOverflows.mul (mul_lt_of_lt hal hbl)).bind <|
    (NeverOverflows.mul (mul_lt_of_lt hah hbl)).bind <|
    (NeverOverflows.mul (mul_lt_of_lt hal hbh)).bind <|
    (NeverOverflows.mul (mul_lt_of_lt hah hbh)).bind <| .of_pure _

/-- Three halves meet in the middle column. -/
theorem middleOn_neverOverflows (c : Columns) :
    NeverOverflows (fun _ _ native => c.middleOn native) c.middle := by
  have hll := toNat_highHalf_lt c.lowLow
  have hhl := toNat_lowHalf_lt c.highLow
  have hlh := toNat_lowHalf_lt c.lowHigh
  have hfirst : (highHalf c.lowLow).toNat + (lowHalf c.highLow).toNat < 2 ^ 128 := by omega
  have hsum := BitVec.toNat_add_of_lt hfirst
  unfold Columns.middleOn
  exact (NeverOverflows.add hfirst).bind (.add (by omega))

/-- The greatest partial products leave room for what the columns below them carry. -/
theorem highOn_neverOverflows {c : Columns} (h : c.IsPartial) :
    NeverOverflows (fun _ _ native => c.highOn native c.middle) c.high := by
  obtain ⟨hhl, hlh, hhh⟩ := h
  have hll : c.lowLow.toNat < 2 ^ 128 := c.lowLow.isLt
  have hmiddle := c.toNat_middle
  -- no product of halves reaches the last but one 64-bit word, and the carry is below three
  have hhl' : (highHalf c.highLow).toNat ≤ 2 ^ 64 - 2 := by
    rw [toNat_highHalf]
    omega
  have hlh' : (highHalf c.lowHigh).toNat ≤ 2 ^ 64 - 2 := by
    rw [toNat_highHalf]
    omega
  have hcarry : (highHalf c.middle).toNat ≤ 2 := by
    rw [toNat_highHalf]
    omega
  have hfirst : c.highHigh.toNat + (highHalf c.highLow).toNat < 2 ^ 128 := by omega
  have hsum := BitVec.toNat_add_of_lt hfirst
  have hsecond :
      (c.highHigh + highHalf c.highLow).toNat + (highHalf c.lowHigh).toNat < 2 ^ 128 := by
    omega
  have hsum' := BitVec.toNat_add_of_lt hsecond
  unfold Columns.highOn
  exact (NeverOverflows.add hfirst).bind ((NeverOverflows.add hsecond).bind (.add (by omega)))

theorem wideMul_neverOverflows (a b : Word) :
    NeverOverflows (fun _ _ native => wideMulOn native a b) (wideMul a b) := by
  rw [wideMul_eq]
  unfold wideMulOn
  exact (columnsOn_neverOverflows a b).bind <| (middleOn_neverOverflows _).bind <|
    (highOn_neverOverflows (isPartial_columns a b)).bind <| .of_pure _

end WideProduct

/-! ### Checked operations -/

namespace U128

theorem checkedAdd_neverOverflows (a b : U128) :
    NeverOverflows (fun _ _ native => checkedAddOn native a b) (a.checkedAdd b) := by
  have hroom : b.bits.toNat ≤ max.bits.toNat := by
    rw [max, BitVec.toNat_allOnes]
    exact Nat.le_sub_one_of_lt b.toNat_lt
  rw [checkedAdd_eq_ite]
  unfold checkedAddOn
  refine (NeverOverflows.sub hroom).bind (.ite (fun _ => .of_pure _) fun h => ?_)
  have hfits := not_not.mp (mt (max_sub_lt_iff a b).mpr h)
  exact (NeverOverflows.add hfits).bind (.of_pure _)

theorem checkedSub_neverOverflows (a b : U128) :
    NeverOverflows (fun _ _ native => checkedSubOn native a b) (a.checkedSub b) := by
  rw [checkedSub_eq_ite]
  unfold checkedSubOn
  refine .ite (fun _ => .of_pure _) fun h => ?_
  have hle := BitVec.le_def.mp (BitVec.not_lt.mp h)
  exact (NeverOverflows.sub hle).bind (.of_pure _)

theorem checkedMul_neverOverflows (a b : U128) :
    NeverOverflows (fun _ _ native => checkedMulOn native a b) (a.checkedMul b) := by
  rw [checkedMul_eq_ite]
  unfold checkedMulOn
  exact (wideMul_neverOverflows a.bits b.bits).bind (.of_pure _)

theorem checkedDiv_neverOverflows (a b : U128) :
    NeverOverflows (fun _ _ native => checkedDivOn native a b) (a.checkedDiv b) := by
  rw [checkedDiv_eq_ite]
  unfold checkedDivOn
  exact .ite (fun _ => .of_pure _) fun h =>
    (NeverOverflows.div (mt isZero_iff.mpr h)).bind (.of_pure _)

theorem checkedRem_neverOverflows (a b : U128) :
    NeverOverflows (fun _ _ native => checkedRemOn native a b) (a.checkedRem b) := by
  rw [checkedRem_eq_ite]
  unfold checkedRemOn
  exact .ite (fun _ => .of_pure _) fun h =>
    (NeverOverflows.rem (mt isZero_iff.mpr h)).bind (.of_pure _)

theorem checkedDivRem_neverOverflows (a b : U128) :
    NeverOverflows (fun _ _ native => checkedDivRemOn native a b) (a.checkedDivRem b) := by
  have hdiv := checkedDiv_neverOverflows a b
  have hrem := checkedRem_neverOverflows a b
  rw [checkedDiv_eq_ite] at hdiv
  rw [checkedRem_eq_ite] at hrem
  rw [checkedDivRem_eq_ite]
  unfold checkedDivRemOn
  refine hdiv.bind ?_
  by_cases h : b.isZero = true
  · rw [if_pos h, if_pos h]
    exact .of_pure _
  · rw [if_neg h] at hrem ⊢
    rw [if_neg h]
    exact hrem.bind (.of_pure _)

/-- **Checked arithmetic is exact, and no native operation in it overflows.** Sums, differences and
products have the exact result where that is a 128-bit integer, and their own fault elsewhere. By a
divisor that is not zero, quotient and remainder come together or one by one, and lead back to the
dividend without a fault; by zero all three are the same fault. None of this takes a native
operation whose result does not fit, nor a division by zero. -/
theorem checked_exact_without_overflow (a b : U128) :
    (((∃ c, a.checkedAdd b = .ok c ∧ c.toNat = a.toNat + b.toNat) ↔
        a.toNat + b.toNat < 2 ^ 128) ∧
      (a.checkedAdd b = .error (.overflow "u128_add") ↔ ¬ a.toNat + b.toNat < 2 ^ 128)) ∧
    (((∃ c, a.checkedSub b = .ok c ∧ (c.toNat : ℤ) = a.toNat - b.toNat) ↔ b.toNat ≤ a.toNat) ∧
      (a.checkedSub b = .error (.underflow "u128_sub") ↔ ¬ b.toNat ≤ a.toNat)) ∧
    (((∃ c, a.checkedMul b = .ok c ∧ c.toNat = a.toNat * b.toNat) ↔
        a.toNat * b.toNat < 2 ^ 128) ∧
      (a.checkedMul b = .error (.overflow "u128_mul") ↔ ¬ a.toNat * b.toNat < 2 ^ 128)) ∧
    ((b.toNat ≠ 0 → ∃ q r p, a.checkedDivRem b = .ok (q, r) ∧ a.checkedDiv b = .ok q ∧
        a.checkedRem b = .ok r ∧ compare r b = .lt ∧ q.checkedMul b = .ok p ∧
        p.checkedAdd r = .ok a) ∧
      (a.checkedDiv b = .error .divisionByZero ↔ b.toNat = 0) ∧
      (a.checkedRem b = .error .divisionByZero ↔ b.toNat = 0) ∧
      (a.checkedDivRem b = .error .divisionByZero ↔ b.toNat = 0)) ∧
    NeverOverflows (fun _ _ native => checkedAddOn native a b) (a.checkedAdd b) ∧
    NeverOverflows (fun _ _ native => checkedSubOn native a b) (a.checkedSub b) ∧
    NeverOverflows (fun _ _ native => checkedMulOn native a b) (a.checkedMul b) ∧
    NeverOverflows (fun _ _ native => checkedDivOn native a b) (a.checkedDiv b) ∧
    NeverOverflows (fun _ _ native => checkedRemOn native a b) (a.checkedRem b) ∧
    NeverOverflows (fun _ _ native => checkedDivRemOn native a b) (a.checkedDivRem b) := by
  refine ⟨⟨integersBelow.exists_ok_iff fun c => checkedAdd_eq_ok_iff, ?_⟩,
    ⟨integersBelow.exists_ok_sub_iff a.toNat_lt fun c => checkedSub_eq_ok_iff, ?_⟩,
    ⟨integersBelow.exists_ok_iff fun c => checkedMul_eq_ok_iff, ?_⟩,
    ⟨exists_checkedDivRem a, ?_, ?_, ?_⟩,
    checkedAdd_neverOverflows a b, checkedSub_neverOverflows a b, checkedMul_neverOverflows a b,
    checkedDiv_neverOverflows a b, checkedRem_neverOverflows a b, checkedDivRem_neverOverflows a b⟩
  · rw [checkedAdd_eq, ite_eq_error_self_iff]
  · rw [checkedSub_eq, ite_eq_error_self_iff]
  · rw [checkedMul_eq, ite_eq_error_self_iff]
  · rw [checkedDiv_eq, ite_eq_divisionByZero_iff]
  · rw [checkedRem_eq, ite_eq_divisionByZero_iff]
  · rw [checkedDivRem_eq, ite_eq_divisionByZero_iff]

/-- The greatest integer by a divisor above `2 ^ 64`: the quotient times the divisor is one of the
greatest products that fit. -/
theorem checked_exact_without_overflow_max :
    let b := ofNat (2 ^ 64 + 1)
    ∃ q r p, max.checkedDivRem b = .ok (q, r) ∧ max.checkedDiv b = .ok q ∧
      max.checkedRem b = .ok r ∧ compare r b = .lt ∧ q.checkedMul b = .ok p ∧
      p.checkedAdd r = .ok max := by
  intro b
  exact (checked_exact_without_overflow max b).2.2.2.1.1 (by decide)

end U128

end FieldWords
