import Mathlib.Data.Finset.Card
import FieldWords.Order
import FieldWords.Proofs.Order

/-!
# Sorting by numbers

Every ordered type of the library is ordered by a number of each value, and values with one number
are equal (`IsOrderedBy`). So a list in ascending order is the only rearrangement of a list whose
numbers do not fall (`IsOrderedBy.eq_ascending_iff`), whatever the order they came in, and there are
as many different values as numbers (`IsOrderedBy.countDistinct_eq`).
-/

namespace FieldWords

variable {α : Type}

theorem nodup_eraseDups [DecidableEq α] (xs : List α) : xs.eraseDups.Nodup := by
  induction hn : xs.length using Nat.strongRecOn generalizing xs with
  | ind n ih =>
    cases xs with
    | nil => exact List.nodup_nil
    | cons a xs =>
      have hshort : (xs.filter fun b => !b == a).length < n :=
        (Nat.lt_succ_of_le (List.length_filter_le _ xs)).trans_eq hn
      rw [List.eraseDups_cons, List.nodup_cons, List.mem_eraseDups]
      exact ⟨by simp, ih _ hshort _ rfl⟩

theorem countDistinct_eq_card [DecidableEq α] (xs : List α) :
    countDistinct xs = xs.toFinset.card := by
  have hsame : xs.eraseDups.toFinset = xs.toFinset := by
    ext a
    rw [List.mem_toFinset, List.mem_toFinset, List.mem_eraseDups]
  rw [countDistinct, ← List.toFinset_card_of_nodup (nodup_eraseDups xs), hsame]

/-- Values compare as numbers do that differ where the values do. -/
structure IsOrderedBy [Ord α] (number : α → ℕ) : Prop where
  injective : Function.Injective number
  compare_eq (a b : α) : compare a b = compare (number a) (number b)

namespace IsOrderedBy

variable [Ord α] {number : α → ℕ}

theorem isLE_compare (h : IsOrderedBy number) (a b : α) :
    (compare a b).isLE = true ↔ number a ≤ number b := by
  rw [h.compare_eq, Nat.isLE_compare]

theorem pairwise_ascending (h : IsOrderedBy number) (xs : List α) :
    (ascending xs).Pairwise fun a b => number a ≤ number b := by
  have htrans : ∀ a b c : α, (compare a b).isLE = true → (compare b c).isLE = true →
      (compare a c).isLE = true := by
    intro a b c hab hbc
    rw [h.isLE_compare] at hab hbc ⊢
    exact hab.trans hbc
  have htotal : ∀ a b : α, ((compare a b).isLE || (compare b a).isLE) = true := by
    intro a b
    rw [Bool.or_eq_true, h.isLE_compare, h.isLE_compare]
    exact Nat.le_total _ _
  exact (List.pairwise_mergeSort htrans htotal xs).imp fun hab => (h.isLE_compare _ _).mp hab

/-- The values in ascending order are their only rearrangement whose numbers do not fall. -/
theorem eq_ascending_iff (h : IsOrderedBy number) {xs ys : List α} :
    ys = ascending xs ↔ ys.Perm xs ∧ ys.Pairwise fun a b => number a ≤ number b := by
  have hperm : (ascending xs).Perm xs := List.mergeSort_perm xs _
  constructor
  · rintro rfl
    exact ⟨hperm, h.pairwise_ascending xs⟩
  · rintro ⟨hys, hsorted⟩
    exact List.Perm.eq_of_pairwise (fun _ _ _ _ hab hba => h.injective (Nat.le_antisymm hab hba))
      hsorted (h.pairwise_ascending xs) (hys.trans hperm.symm)

/-- The order in which the values came does not show. -/
theorem ascending_eq_ascending_iff (h : IsOrderedBy number) {xs ys : List α} :
    ascending xs = ascending ys ↔ xs.Perm ys := by
  have hperm : (ascending xs).Perm xs := List.mergeSort_perm xs _
  rw [h.eq_ascending_iff, and_iff_left (h.pairwise_ascending xs)]
  exact ⟨hperm.symm.trans, hperm.trans⟩

theorem countDistinct_eq [DecidableEq α] (h : IsOrderedBy number) (xs : List α) :
    countDistinct xs = (xs.map number).toFinset.card := by
  rw [countDistinct_eq_card, ← Finset.card_image_of_injective _ h.injective]
  congr 1
  ext n
  simp only [Finset.mem_image, List.mem_toFinset, List.mem_map]

end IsOrderedBy

/-! ### The ordered types -/

theorem isOrderedBy_u128 : IsOrderedBy U128.toNat where
  injective _ _ := U128.toNat_injective
  compare_eq _ _ := rfl

theorem isOrderedBy_u256 : IsOrderedBy U256.toNat where
  injective _ _ := U256.toNat_injective
  compare_eq := U256.compare_eq

theorem isOrderedBy_felt : IsOrderedBy Felt.val where
  injective _ _ := Felt.val_injective
  compare_eq := Felt.compare_eq

theorem isOrderedBy_address (s : Space) : IsOrderedBy fun a : Address s => a.felt.val where
  injective := fun ⟨_, _⟩ ⟨_, _⟩ h => by
    obtain rfl := Felt.val_injective h
    rfl
  compare_eq _ _ := rfl

end FieldWords
