import Mathlib.Algebra.BigOperators.Group.List.Basic
import FieldWords.Proofs.U256.Arithmetic

/-!
# Totals of checked integers

A checked operation folded over a list stops at the first fault. If no operand makes a number
smaller, a total that has left the bound never comes back, so the fold fails exactly if the exact
total does not fit (`IntegersBelow.foldlM_eq`). Sums and products of numbers do not depend on the
order of the list, so neither do these folds (`sum_in_any_order`, `product_in_any_order`). A zero
makes products smaller: where it stands decides whether it is reached.
-/

namespace FieldWords

/-- The integer of a number below the bound, and the fault for any other number. -/
def IsExactResult {α : Type} (bound : ℕ) (toNat : α → ℕ) (n : ℕ) (f : Fault)
    (r : Except Fault α) : Prop :=
  (n < bound → ∃ c, r = .ok c ∧ toNat c = n) ∧ (bound ≤ n → r = .error f)

namespace IntegersBelow

variable {α : Type} {bound : ℕ} {toNat : α → ℕ} {ofNat : ℕ → α} {op : α → α → Except Fault α}
  {g : ℕ → ℕ → ℕ} {f : Fault} {xs ys : List α} {a : α}

/-- What only grows ends where it began, or beyond. -/
theorem le_foldl {ns : List ℕ} (hle : ∀ n ∈ ns, ∀ m, m ≤ g m n) (m : ℕ) : m ≤ ns.foldl g m := by
  induction ns generalizing m with
  | nil => exact le_rfl
  | cons n ns ih =>
    obtain ⟨hn, hns⟩ := List.forall_mem_cons.mp hle
    exact (hn m).trans (ih hns _)

variable (h : IntegersBelow bound toNat ofNat)
  (hop : ∀ a b, op a b = if g (toNat a) (toNat b) < bound then .ok (ofNat (g (toNat a) (toNat b)))
    else .error f)

include h hop

/-- A fold has the exact total if that is below the bound: the first step that leaves the bound has
left it for good. -/
theorem foldlM_eq (hle : ∀ n ∈ xs.map toNat, ∀ m, m ≤ g m n) (a : α) :
    xs.foldlM op a =
      if (xs.map toNat).foldl g (toNat a) < bound then
        .ok (ofNat ((xs.map toNat).foldl g (toNat a)))
      else .error f := by
  induction xs generalizing a with
  | nil =>
    have hofNat : ofNat (toNat a) = a := h.toNat_inj.mp (h.toNat_ofNat (h.toNat_lt a))
    rw [List.foldlM_nil, List.map_nil, List.foldl_nil, if_pos (h.toNat_lt a), hofNat]
    rfl
  | cons x xs ih =>
    rw [List.map_cons, List.forall_mem_cons] at hle
    rw [List.foldlM_cons, hop, List.map_cons, List.foldl_cons]
    by_cases hstep : g (toNat a) (toNat x) < bound
    · rw [if_pos hstep]
      show xs.foldlM op (ofNat _) = _
      rw [ih hle.2, h.toNat_ofNat hstep]
    · have hrest := le_foldl hle.2 (g (toNat a) (toNat x))
      rw [if_neg hstep, if_neg (by omega)]
      rfl

theorem isExactResult_foldlM (hle : ∀ n ∈ xs.map toNat, ∀ m, m ≤ g m n) (a : α) :
    IsExactResult bound toNat ((xs.map toNat).foldl g (toNat a)) f (xs.foldlM op a) := by
  rw [foldlM_eq h hop hle]
  constructor
  · intro hlt
    exact ⟨_, if_pos hlt, h.toNat_ofNat hlt⟩
  · intro hge
    exact if_neg (Nat.not_lt.mpr hge)

/-- Where the order of numbers does not matter to their total, the order of the list does not matter
to the fold. -/
theorem foldlM_perm [RightCommutative g] (hle : ∀ n ∈ xs.map toNat, ∀ m, m ≤ g m n)
    (hperm : xs.Perm ys) (a : α) : xs.foldlM op a = ys.foldlM op a := by
  have hmap := hperm.map toNat
  rw [foldlM_eq h hop hle, foldlM_eq h hop fun n hn => hle n (hmap.mem_iff.mpr hn), hmap.foldl_eq]

end IntegersBelow

section InAnyOrder

variable {α : Type} {bound : ℕ} {toNat : α → ℕ} {ofNat : ℕ → α} {op : α → α → Except Fault α}
  {f : Fault} {xs ys : List α} {a : α} (h : IntegersBelow bound toNat ofNat)

include h

theorem sum_in_any_order
    (hop : ∀ a b, op a b = if toNat a + toNat b < bound then .ok (ofNat (toNat a + toNat b))
      else .error f)
    (ha : toNat a = 0) (hperm : xs.Perm ys) :
    xs.foldlM op a = ys.foldlM op a ∧
      IsExactResult bound toNat (xs.map toNat).sum f (xs.foldlM op a) := by
  have hle : ∀ n ∈ xs.map toNat, ∀ m, m ≤ m + n := fun n _ m => Nat.le_add_right m n
  refine ⟨h.foldlM_perm (g := (· + ·)) hop hle hperm a, ?_⟩
  rw [List.sum_eq_foldl, ← ha]
  exact h.isExactResult_foldlM (g := (· + ·)) hop hle a

theorem product_in_any_order
    (hop : ∀ a b, op a b = if toNat a * toNat b < bound then .ok (ofNat (toNat a * toNat b))
      else .error f)
    (ha : toNat a = 1) (hne : ∀ x ∈ xs, toNat x ≠ 0) (hperm : xs.Perm ys) :
    xs.foldlM op a = ys.foldlM op a ∧
      IsExactResult bound toNat (xs.map toNat).prod f (xs.foldlM op a) := by
  have hle : ∀ n ∈ xs.map toNat, ∀ m, m ≤ m * n :=
    List.forall_mem_map.mpr fun x hx m => Nat.le_mul_of_pos_right m (Nat.pos_of_ne_zero (hne x hx))
  refine ⟨h.foldlM_perm (g := (· * ·)) hop hle hperm a, ?_⟩
  rw [List.prod_eq_foldl, ← ha]
  exact h.isExactResult_foldlM (g := (· * ·)) hop hle a

end InAnyOrder

/-- A product of three that leaves the bound, and the same one with a zero that is reached first. -/
example :
    let a : U256 := ⟨U128.one, U128.zero⟩
    [a, a, U256.zero].foldlM U256.checkedMul U256.one = .error (.overflow "u256_mul") ∧
      [U256.zero, a, a].foldlM U256.checkedMul U256.one = .ok U256.zero := by
  decide

/-- **Totals do not depend on the order.** Checked sums from zero over a list and over the same list
in any other order are the same: the exact sum if it is below the bound of the integers, and
otherwise the fault of sums. If no integer is zero, so are checked products from one. -/
theorem totals_exact_in_any_order :
    (∀ xs ys : List U256, xs.Perm ys →
      (xs.foldlM U256.checkedAdd U256.zero = ys.foldlM U256.checkedAdd U256.zero ∧
        IsExactResult (2 ^ 256) U256.toNat (xs.map U256.toNat).sum (.overflow "u256_add")
          (xs.foldlM U256.checkedAdd U256.zero)) ∧
      ((∀ x ∈ xs, x ≠ U256.zero) →
        xs.foldlM U256.checkedMul U256.one = ys.foldlM U256.checkedMul U256.one ∧
        IsExactResult (2 ^ 256) U256.toNat (xs.map U256.toNat).prod (.overflow "u256_mul")
          (xs.foldlM U256.checkedMul U256.one))) ∧
    (∀ xs ys : List U128, xs.Perm ys →
      (xs.foldlM U128.checkedAdd U128.zero = ys.foldlM U128.checkedAdd U128.zero ∧
        IsExactResult (2 ^ 128) U128.toNat (xs.map U128.toNat).sum (.overflow "u128_add")
          (xs.foldlM U128.checkedAdd U128.zero)) ∧
      ((∀ x ∈ xs, x ≠ U128.zero) →
        xs.foldlM U128.checkedMul U128.one = ys.foldlM U128.checkedMul U128.one ∧
        IsExactResult (2 ^ 128) U128.toNat (xs.map U128.toNat).prod (.overflow "u128_mul")
          (xs.foldlM U128.checkedMul U128.one))) := by
  refine ⟨fun xs ys hperm => ⟨?_, fun hne => ?_⟩, fun xs ys hperm => ⟨?_, fun hne => ?_⟩⟩
  · exact sum_in_any_order U256.integersBelow U256.checkedAdd_eq rfl hperm
  · exact product_in_any_order U256.integersBelow U256.checkedMul_eq rfl
      (fun x hx => mt U256.toNat_eq_zero_iff.mp (hne x hx)) hperm
  · exact sum_in_any_order U128.integersBelow U128.checkedAdd_eq rfl hperm
  · exact product_in_any_order U128.integersBelow U128.checkedMul_eq rfl
      (fun x hx => mt U128.toNat_eq_zero_iff.mp (hne x hx)) hperm

/-- From the last integer on: a sum that fits whose product is `2 ^ 256`, and a sum beyond `2 ^ 128`
whose product fits. -/
theorem totals_exact_in_any_order_sum_or_product :
    let xs : List U256 := [.ofNat (2 ^ 255), .ofNat 2, .one]
    let ys : List U128 := [.max, .one, .one]
    (∃ c, xs.reverse.foldlM U256.checkedAdd .zero = .ok c ∧ c.toNat = 2 ^ 255 + 3) ∧
      (∀ x ∈ xs, x ≠ .zero) ∧
      xs.reverse.foldlM U256.checkedMul .one = .error (.overflow "u256_mul") ∧
      ys.reverse.foldlM U128.checkedAdd .zero = .error (.overflow "u128_add") ∧
      (∀ y ∈ ys, y ≠ .zero) ∧
      ∃ c, ys.reverse.foldlM U128.checkedMul .one = .ok c ∧ c.toNat = 2 ^ 128 - 1 := by
  intro xs ys
  have hxs : ∀ x ∈ xs, x ≠ .zero := by decide
  have hys : ∀ y ∈ ys, y ≠ .zero := by decide
  obtain ⟨⟨hsum, hsumExact⟩, hproduct⟩ :=
    totals_exact_in_any_order.1 xs xs.reverse (List.reverse_perm xs).symm
  obtain ⟨⟨hsum', hsumExact'⟩, hproduct'⟩ :=
    totals_exact_in_any_order.2 ys ys.reverse (List.reverse_perm ys).symm
  rw [← hsum, ← (hproduct hxs).1, ← hsum', ← (hproduct' hys).1]
  exact ⟨hsumExact.1 (by decide), hxs, (hproduct hxs).2.2 (by decide), hsumExact'.2 (by decide),
    hys, (hproduct' hys).2.1 (by decide)⟩

end FieldWords
