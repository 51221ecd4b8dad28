import Mathlib.Data.Nat.Digits.Lemmas

/-!
# Lexicographic order of digits

Lists of the same length whose items are digits compare, from the first digit on, as the numbers
that they write with the first digit as the most significant one (`compareLex_eq_compare_ofDigits`).
The step is the order of pairs: a part below the base never outweighs what stands in front of it
(`compare_then_compare`). Whatever items stand for the digits, bytes or words or characters, they
only have to compare as the digits do (`compareLex_map`, `compareLex_compareOn_eq`).
-/

namespace FieldWords

/-- What is below the base does not make up for a smaller number in front. -/
theorem mul_add_lt_mul_add {base m n x : ℕ} (h : m < n) (hx : x < base) (y : ℕ) :
    m * base + x < n * base + y :=
  calc m * base + x < (m + 1) * base := by rw [Nat.succ_mul]; exact Nat.add_lt_add_left hx _
    _ ≤ n * base := Nat.mul_le_mul_right base h
    _ ≤ n * base + y := Nat.le_add_right _ _

/-- Below the base, a second part decides only where the first parts are equal. -/
theorem compare_then_compare {base m n x y : ℕ} (hx : x < base) (hy : y < base) :
    (compare m n).then (compare x y) = compare (m * base + x) (n * base + y) := by
  rcases Nat.lt_trichotomy m n with h | rfl | h
  · rw [Nat.compare_eq_lt.mpr h, Nat.compare_eq_lt.mpr (mul_add_lt_mul_add h hx y)]
    rfl
  · rw [Nat.compare_eq_eq.mpr rfl, Nat.compare_eq_ite_lt, Nat.compare_eq_ite_lt]
    simp only [Ordering.then, Nat.add_lt_add_iff_left]
  · rw [Nat.compare_eq_gt.mpr h, Nat.compare_eq_gt.mpr (mul_add_lt_mul_add h hy x)]
    rfl

theorem ofDigits_reverse_lt {base : ℕ} (hbase : 1 < base) {vs : List ℕ}
    (h : ∀ v ∈ vs, v < base) : Nat.ofDigits base vs.reverse < base ^ vs.length := by
  have hlt := Nat.ofDigits_lt_base_pow_length hbase fun v hv => h v (List.mem_reverse.mp hv)
  rwa [List.length_reverse] at hlt

/-- Replaced by items that compare in the same way, lists compare as before. -/
theorem compareLex_map {α β : Type} {cmp : α → α → Ordering} {cmp' : β → β → Ordering} {g : α → β}
    {as bs : List α} (h : ∀ a ∈ as, ∀ b ∈ bs, cmp' (g a) (g b) = cmp a b) :
    (as.map g).compareLex cmp' (bs.map g) = as.compareLex cmp bs := by
  induction as generalizing bs with
  | nil =>
    cases bs with
    | nil => rfl
    | cons b bs => rfl
  | cons a as ih =>
    cases bs with
    | nil => rfl
    | cons b bs =>
      have hrest := ih fun x hx y hy =>
        h x (List.mem_cons_of_mem a hx) y (List.mem_cons_of_mem b hy)
      rw [List.map_cons, List.map_cons, List.compareLex_cons_cons, List.compareLex_cons_cons, hrest,
        h a List.mem_cons_self b List.mem_cons_self]

/-- Equally many digits, the most significant first, compare as the numbers that they write. -/
theorem compareLex_eq_compare_ofDigits {base : ℕ} (hbase : 1 < base) {vs ws : List ℕ}
    (hlen : vs.length = ws.length) (hvs : ∀ v ∈ vs, v < base) (hws : ∀ w ∈ ws, w < base) :
    vs.compareLex compare ws =
      compare (Nat.ofDigits base vs.reverse) (Nat.ofDigits base ws.reverse) := by
  induction vs generalizing ws with
  | nil =>
    obtain rfl := List.length_eq_zero_iff.mp hlen.symm
    exact (Nat.compare_eq_eq.mpr rfl).symm
  | cons v vs ih =>
    obtain ⟨w, ws, rfl⟩ := List.exists_cons_of_length_eq_add_one hlen.symm
    obtain ⟨hv, hvs⟩ := List.forall_mem_cons.mp hvs
    obtain ⟨hw, hws⟩ := List.forall_mem_cons.mp hws
    have hlen : vs.length = ws.length := Nat.succ.inj hlen
    have hlowv := ofDigits_reverse_lt hbase hvs
    have hloww := ofDigits_reverse_lt hbase hws
    rw [← hlen] at hloww
    rw [List.compareLex_cons_cons, ih hlen hvs hws,
      compare_then_compare hlowv hloww, Nat.ofDigits_reverse_cons,
      Nat.ofDigits_reverse_cons, hlen, Nat.mul_comm v, Nat.mul_comm w, Nat.add_comm (_ * v),
      Nat.add_comm (_ * w)]

/-- Items that stand for digits compare as the numbers that the digits write. -/
theorem compareLex_compareOn_eq {α : Type} {base : ℕ} (hbase : 1 < base) {digit : α → ℕ}
    (hdigit : ∀ a, digit a < base) {as bs : List α} (hlen : as.length = bs.length) :
    as.compareLex (compareOn digit) bs =
      compare (Nat.ofDigits base (as.map digit).reverse)
        (Nat.ofDigits base (bs.map digit).reverse) := by
  have hlt (cs : List α) : ∀ v ∈ cs.map digit, v < base :=
    List.forall_mem_map.mpr fun c _ => hdigit c
  have hdigits : (as.map digit).compareLex compare (bs.map digit) =
      as.compareLex (compareOn digit) bs := compareLex_map fun _ _ _ _ => rfl
  rw [← hdigits, compareLex_eq_compare_ofDigits hbase (by simpa using hlen) (hlt as) (hlt bs)]

end FieldWords
