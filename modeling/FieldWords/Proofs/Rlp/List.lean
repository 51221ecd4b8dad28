import Mathlib.Algebra.Order.BigOperators.Group.List
import FieldWords.Proofs.Rlp

/-!
# Lists on the wire

A header tells the length of the content behind it (`frame?_header`), so the walk over a list takes
an encoded string whole, whatever follows (`IsItem`, `isItem_encodeString`), and takes items one
after the other apart again (`splitItems_flatten`). The items of an encoded list are those that were
put into it (`listItems_encodeList`), and a list of numbers is read back (`decodeAll_encodeAll`).
-/

namespace FieldWords.Rlp

/-! ### Headers -/

/-- The first byte of a header lies between its base and the next one, and the header tells its own
length and that of the content. -/
theorem frame?_header {base n : ℕ} (hbase : base + shortLength + 8 < 256) (hn : n < 256 ^ 8)
    (content : List UInt8) :
    ∃ l bs, header base n = l :: bs ∧ base ≤ l.toNat ∧ l.toNat ≤ base + shortLength + 8 ∧
      frame? base l (bs ++ content) = some ((header base n).length, n) := by
  by_cases hshort : n ≤ shortLength
  · have hl : (UInt8.ofNat (base + n)).toNat = base + n :=
      UInt8.toNat_ofNat_of_lt' (by simp only [UInt8.size]; omega)
    refine ⟨_, [], header_of_le hshort, by omega, by omega, ?_⟩
    rw [frame?, hl, if_pos (Nat.add_le_add_left hshort base), Nat.add_sub_cancel_left,
      header_of_le hshort]
    rfl
  · -- the bytes of the length have no zero in front, and the first byte counts them
    obtain ⟨hhead, hlen, hvalue⟩ := (Bytes.eq_minimal_iff hn).mp rfl
    generalize hbs : Bytes.minimal 8 n = bs at hhead hlen hvalue
    have hheader : header base n = UInt8.ofNat (base + shortLength + bs.length) :: bs := by
      rw [header, if_neg hshort, ← hbs]
    have hl : (UInt8.ofNat (base + shortLength + bs.length)).toNat =
        base + shortLength + bs.length :=
      UInt8.toNat_ofNat_of_lt' (by simp only [UInt8.size]; omega)
    have hpos : 0 < bs.length := by
      rw [List.length_pos_iff]
      rintro rfl
      exact hshort (hvalue ▸ Nat.zero_le _)
    have htake : (bs ++ content).take bs.length = bs := List.take_left
    refine ⟨_, bs, hheader, by omega, by omega, ?_⟩
    rw [frame?, hl, if_neg (by omega), hheader]
    simp only [Nat.add_sub_cancel_left, htake, hvalue, List.length_append, List.length_cons]
    rw [if_neg (by simp only [hhead, hshort, or_false]; omega), Nat.add_comm 1]

/-- Content behind its header is there whole, whatever follows. -/
theorem item?_header_append {base : ℕ} (hbase : base = stringBase ∨ base = listBase)
    {content : List UInt8} (h : content.length < 256 ^ 8) (rest : List UInt8) :
    item? (header base content.length ++ content ++ rest) =
      some ((header base content.length).length, content.length) := by
  have hnext : base + shortLength + 8 < 256 := by
    obtain rfl | rfl := hbase
    · decide
    · decide
  obtain ⟨l, bs, hheader, hlow, hhigh, hframe⟩ := frame?_header hnext h (content ++ rest)
  have hthere : (bs.length + 1) + content.length ≤ (bs ++ (content ++ rest)).length + 1 := by
    simp only [List.length_append]
    omega
  rw [List.append_assoc, hheader, List.cons_append, item?]
  rw [hheader, List.length_cons] at hframe
  obtain rfl | rfl := hbase
  · have hlist : l.toNat < listBase := Nat.lt_of_le_of_lt hhigh (by decide)
    simp only [if_neg (Nat.not_lt_of_le hlow), if_pos hlist, hframe, List.length_cons]
    exact Option.filter_some_pos (decide_eq_true hthere)
  · have hstring : ¬ l.toNat < stringBase := Nat.not_lt_of_le (Nat.le_trans (by decide) hlow)
    simp only [if_neg hstring, if_neg (Nat.not_lt_of_le hlow), hframe, List.length_cons]
    exact Option.filter_some_pos (decide_eq_true hthere)

/-! ### Items -/

/-- Bytes that the walk over a list takes as one item, whatever follows. -/
def IsItem (e : List UInt8) : Prop :=
  ∀ rest, ∃ f, item? (e ++ rest) = some f ∧ f.1 + f.2 = e.length

theorem IsItem.ne_nil {e : List UInt8} (h : IsItem e) : e ≠ [] := by
  rintro rfl
  obtain ⟨f, hf, -⟩ := h []
  cases hf

theorem isItem_encodeString {d : List UInt8} (h : d.length < 256 ^ 8) :
    IsItem (encodeString d) := by
  intro rest
  obtain ⟨b, rfl, hb, henc⟩ | ⟨-, henc⟩ := encodeString_cases d
  · refine ⟨(0, 1), ?_, congrArg List.length henc.symm⟩
    rw [henc, List.singleton_append, item?]
    simp only [if_pos hb]
    exact Option.filter_some_pos (decide_eq_true (Nat.le_add_left _ _))
  · rw [henc]
    exact ⟨_, item?_header_append (Or.inl rfl) h rest, List.length_append.symm⟩

theorem splitItems_append {e : List UInt8} (h : IsItem e) (rest : List UInt8) :
    splitItems (e ++ rest) = e :: splitItems rest := by
  obtain ⟨f, hf, hlen⟩ := h rest
  obtain ⟨l, bs, rfl⟩ := List.exists_cons_of_ne_nil h.ne_nil
  have hpos : 0 < f.1 + f.2 := hlen ▸ Nat.succ_pos _
  rw [List.cons_append] at hf ⊢
  rw [splitItems, hf]
  simp only [if_pos hpos]
  rw [hlen, ← List.cons_append, List.take_left, List.drop_left]

/-- Items one after the other are taken apart. -/
theorem splitItems_flatten {items : List (List UInt8)} (h : ∀ e ∈ items, IsItem e) :
    splitItems items.flatten = items := by
  induction items with
  | nil => rw [List.flatten_nil, splitItems]
  | cons e items ih =>
    obtain ⟨he, hitems⟩ := List.forall_mem_cons.mp h
    rw [List.flatten_cons, splitItems_append he, ih hitems]

/-- The items of an encoded list are those that were put into it. -/
theorem listItems_encodeList {items : List (List UInt8)} (h : ∀ e ∈ items, IsItem e)
    (hlen : items.flatten.length < 256 ^ 8) : listItems (encodeList items) = items := by
  have hitem := item?_header_append (Or.inr rfl) hlen []
  have hbase : listBase + shortLength + 8 < 256 := by decide
  obtain ⟨l, bs, hheader, hlow, -, -⟩ := frame?_header hbase hlen []
  rw [List.append_nil] at hitem
  have hdrop : (header listBase items.flatten.length ++ items.flatten).drop
      (header listBase items.flatten.length).length = items.flatten := List.drop_left
  rw [encodeList]
  generalize hbytes : header listBase items.flatten.length ++ items.flatten = bytes at hitem hdrop
  rw [hheader, List.cons_append] at hbytes
  subst hbytes
  rw [listItems, if_neg (Nat.not_lt_of_le hlow), hitem]
  simp only [hdrop, List.take_length]
  cases items with
  | nil => rfl
  | cons e items =>
    obtain ⟨f, hf, -⟩ := h e List.mem_cons_self items.flatten
    rw [List.flatten_cons, hf, Option.isSome_some, if_pos rfl, ← List.flatten_cons,
      splitItems_flatten h]

/-! ### Lists of numbers -/

section IsForm

variable {α : Type} [Form α] {number : α → ℕ} {IsLarge : List UInt8 → Prop}

theorem IsForm.isItem_encode (h : IsForm number IsLarge) (a : α) : IsItem (encode a) :=
  isItem_encodeString ((h.length_toContent_le a).trans_lt (by decide))

theorem IsForm.mapM_decode_encode (h : IsForm number IsLarge) (xs : List α) :
    (xs.map encode).mapM decode = .ok xs := by
  induction xs with
  | nil => rfl
  | cons a xs ih =>
    rw [List.map_cons, List.mapM_cons, h.isCanonical.decode_encode, ih]
    rfl

/-- A list of numbers is read back. -/
theorem IsForm.decodeAll_encodeAll (h : IsForm number IsLarge) {xs : List α}
    (hlen : (xs.map encode).flatten.length < 256 ^ 8) : decodeAll (encodeAll xs) = .ok xs := by
  have hitems : ∀ e ∈ xs.map encode, IsItem e := by
    intro e he
    obtain ⟨a, -, rfl⟩ := List.mem_map.mp he
    exact h.isItem_encode a
  rw [decodeAll, encodeAll, listItems_encodeList hitems hlen, h.mapM_decode_encode]

theorem IsForm.length_flatten_le (h : IsForm number IsLarge) (xs : List α) :
    (xs.map encode).flatten.length ≤ xs.length * 33 := by
  have hle : ∀ n ∈ xs.map (List.length ∘ encode), n ≤ 33 := by
    intro n hn
    obtain ⟨a, -, rfl⟩ := List.mem_map.mp hn
    exact h.isCanonical.length_encode_le a
  have hsum := List.sum_le_card_nsmul _ _ hle
  rwa [List.length_map, nsmul_eq_mul, ← List.map_map, ← List.length_flatten] at hsum

end IsForm

/-- Lists of elements and lists of integers are read back, as long as 33 bytes for each number are
fewer than `2 ^ 64`. -/
theorem decodeAll_encodeAll :
    (∀ xs : List Felt, xs.length * 33 < 2 ^ 64 → decodeAll (encodeAll xs) = .ok xs) ∧
      ∀ xs : List U256, xs.length * 33 < 2 ^ 64 → decodeAll (encodeAll xs) = .ok xs :=
  ⟨fun xs h => isForm_felt.decodeAll_encodeAll ((isForm_felt.length_flatten_le xs).trans_lt h),
    fun xs h => isForm_u256.decodeAll_encodeAll ((isForm_u256.length_flatten_le xs).trans_lt h)⟩

end FieldWords.Rlp
