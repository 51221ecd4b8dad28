import FieldWords.Proofs.Bytes

/-!
# Text inside arbitrary bytes

The lossy decoder finds the beginning of a character wherever it stands. A byte that begins a
character continues none (`exists_encodeChar_eq_cons`), and inside an unfinished character the
decoder waits for a byte between `0x80` and `0xBF` only (`State.Waiting`). So encoded text is read
whole whatever stands before and after it, and what follows it is read as if it stood alone
(`exists_decodeFrom_eq_append`). In turn the bytes of a text occur in those of another text only
where the one text is a part of the other (`exists_of_encode_eq_append`).
-/

namespace FieldWords.Utf8

/-- A byte that can only continue a character. -/
def IsContinuation (b : UInt8) : Prop := 0x80 ≤ b.toNat ∧ b.toNat ≤ 0xBF

/-- Inside a character the decoder waits for a continuation byte. -/
def State.Waiting : State → Prop
  | .between => True
  | .inside _ _ low high => 0x80 ≤ low ∧ high ≤ 0xBF

/-! ### The states of the decoder -/

theorem waiting_start (b : UInt8) : (start b).2.Waiting := by
  unfold start
  dsimp only
  split_ifs <;> simp [State.Waiting]

theorem waiting_step {q : State} (hq : q.Waiting) (b : UInt8) : (step q b).2.Waiting := by
  cases q with
  | between => exact waiting_start b
  | inside bits more low high =>
    by_cases hb : low ≤ b.toNat ∧ b.toNat ≤ high
    · cases more with
      | zero => simp [step, hb, State.Waiting]
      | succ more => simp [step, hb, State.Waiting]
    · simp only [step, if_neg hb]
      exact waiting_start b

/-- Bytes give characters of their own and leave a state for what follows them. -/
theorem exists_decodeFrom_append {q : State} (hq : q.Waiting) (as : List UInt8) :
    ∃ cs q', q'.Waiting ∧ ∀ bs, decodeFrom q (as ++ bs) = cs ++ decodeFrom q' bs := by
  induction as generalizing q with
  | nil => exact ⟨[], q, hq, fun _ => rfl⟩
  | cons a as ih =>
    obtain ⟨cs, q', hq', hcs⟩ := ih (waiting_step hq a)
    refine ⟨(step q a).1 ++ cs, q', hq', fun bs => ?_⟩
    rw [List.cons_append, decodeFrom, hcs, List.append_assoc]

/-- Before a byte that continues no character an unfinished one is given up. -/
theorem decodeFrom_cons_of_not_continuation {q : State} (hq : q.Waiting) {b : UInt8}
    (hb : ¬ IsContinuation b) (bs : List UInt8) :
    decodeFrom q (b :: bs) = q.flush ++ decodeFrom .between (b :: bs) := by
  cases q with
  | between => rfl
  | inside bits more low high =>
    obtain ⟨hlow, hhigh⟩ := hq
    have hout : b.toNat < low ∨ high < b.toNat := by
      unfold IsContinuation at hb
      omega
    exact decodeFrom_inside hout bs

/-! ### Encoded text -/

/-- The first byte of a character continues none, and each of its other bytes continues it. -/
theorem exists_encodeChar_eq_cons (c : Char) :
    ∃ b bs, String.utf8EncodeChar c = b :: bs ∧ ¬ IsContinuation b ∧
      ∀ d ∈ bs, IsContinuation d := by
  have hfirst : ∀ n : ℕ, n < 0x80 ∨ 0xC0 ≤ n → n < 256 → ¬ IsContinuation (UInt8.ofNat n) := by
    intro n hn hlt
    unfold IsContinuation
    rw [UInt8.toNat_ofNat']
    omega
  have hnext : ∀ n : ℕ, IsContinuation (UInt8.ofNat (n % 64 + 128)) := by
    intro n
    unfold IsContinuation
    rw [UInt8.toNat_ofNat']
    omega
  have hlast : ∀ n : ℕ, ∀ d ∈ [UInt8.ofNat (n % 64 + 128)], IsContinuation d :=
    fun n => List.forall_mem_singleton.mpr (hnext n)
  unfold String.utf8EncodeChar
  simp only
  split_ifs
  · exact ⟨_, _, rfl, hfirst _ (by omega) (by omega), List.forall_mem_nil _⟩
  · exact ⟨_, _, rfl, hfirst _ (by omega) (by omega), hlast _⟩
  · exact ⟨_, _, rfl, hfirst _ (by omega) (by omega),
      List.forall_mem_cons.mpr ⟨hnext _, hlast _⟩⟩
  · exact ⟨_, _, rfl, hfirst _ (by omega) (by omega),
      List.forall_mem_cons.mpr ⟨hnext _, List.forall_mem_cons.mpr ⟨hnext _, hlast _⟩⟩⟩

/-- Text stands out of the bytes around it: it is read whole, and what follows it is read as if it
stood alone. -/
theorem exists_decodeFrom_eq_append {cs : List Char} (hcs : cs ≠ []) (before : List UInt8) :
    ∃ front, ∀ after, decodeFrom .between (before ++ (encodeChars cs ++ after)) =
      front ++ (cs ++ decodeFrom .between after) := by
  obtain ⟨front, q, hq, hfront⟩ := exists_decodeFrom_append (q := .between) trivial before
  obtain ⟨c, rest, rfl⟩ := List.exists_cons_of_ne_nil hcs
  obtain ⟨b, bs, hc, hb, -⟩ := exists_encodeChar_eq_cons c
  refine ⟨front ++ q.flush, fun after => ?_⟩
  have hbytes : encodeChars (c :: rest) ++ after = b :: (bs ++ encodeChars rest ++ after) := by
    rw [encodeChars_cons, hc, List.cons_append, List.cons_append]
  rw [hfront, hbytes, decodeFrom_cons_of_not_continuation hq hb, ← hbytes, decodeFrom_encodeChars,
    List.append_assoc]

/-! ### Parts of encoded text -/

/-- Encoded text falls apart into text wherever the second part does not continue a character. -/
theorem exists_of_encodeChars_eq_append {cs : List Char} {before after : List UInt8}
    (hafter : ∀ b, after.head? = some b → ¬ IsContinuation b)
    (h : encodeChars cs = before ++ after) :
    ∃ front rest, cs = front ++ rest ∧ encodeChars front = before ∧ encodeChars rest = after := by
  induction cs generalizing before with
  | nil =>
    obtain ⟨rfl, rfl⟩ := List.append_eq_nil_iff.mp h.symm
    exact ⟨[], [], rfl, rfl, rfl⟩
  | cons c cs ih =>
    rw [encodeChars_cons] at h
    obtain ⟨b, bs, hc, -, hbs⟩ := exists_encodeChar_eq_cons c
    rcases List.append_eq_append_iff.mp h with ⟨mid, rfl, hmid⟩ | ⟨mid, hmid, rfl⟩
    · -- the second part begins behind the first character
      obtain ⟨front, rest, rfl, rfl, hrest⟩ := ih hmid
      exact ⟨c :: front, rest, rfl, rfl, hrest⟩
    · obtain _ | ⟨d, before⟩ := before
      · exact ⟨[], c :: cs, rfl, rfl, by rw [encodeChars_cons, hmid, List.nil_append]⟩
      · -- it begins with a later byte of that character only if none of them is left
        obtain _ | ⟨e, mid⟩ := mid
        · rw [List.append_nil] at hmid
          exact ⟨[c], cs, rfl, by rw [encodeChars_cons, hmid, encodeChars_nil, List.append_nil], rfl⟩
        · rw [hc, List.cons_append, List.cons.injEq] at hmid
          have he : e ∈ bs := by simp [hmid.2]
          exact absurd (hbs e he) (hafter e rfl)

/-- The bytes of a text stand in those of another one only where the text stands in it. -/
theorem exists_of_encode_eq_append {t q : String} {before after : List UInt8} (hq : q ≠ "")
    (h : encode t = before ++ (encode q ++ after)) :
    ∃ u w, t = u ++ q ++ w ∧ encode u = before ∧ encode w = after := by
  obtain ⟨c, cs, hcs⟩ := List.exists_cons_of_ne_nil (l := q.toList) (by simpa using hq)
  obtain ⟨b, bs, hc, hb, -⟩ := exists_encodeChar_eq_cons c
  have hhead : ∀ d, (encode q ++ after).head? = some d → ¬ IsContinuation d := by
    intro d hd
    rw [encode, hcs, encodeChars_cons, hc, List.cons_append, List.cons_append, List.head?_cons,
      Option.some.injEq] at hd
    exact hd ▸ hb
  obtain ⟨front, rest, ht, hfront, hrest⟩ := exists_of_encodeChars_eq_append hhead h
  have hsplit : rest = q.toList ++ decodeFrom .between after := by
    rw [← decodeFrom_encodeChars_self rest, hrest, encode, decodeFrom_encodeChars]
  refine ⟨String.ofList front, String.ofList (decodeFrom .between after), ?_, ?_, ?_⟩
  · rw [← String.toList_inj, ht, hsplit]
    simp only [String.toList_append, String.toList_ofList, List.append_assoc]
  · rw [encode, String.toList_ofList, hfront]
  · rw [hsplit, encodeChars_append, ← encode] at hrest
    rw [encode, String.toList_ofList]
    exact List.append_cancel_left hrest

/-- Only the character zero has a zero byte. -/
theorem zero_notMem_encode {s : String} (h : '\x00' ∉ s.toList) : 0 ∉ encode s := by
  intro hzero
  obtain ⟨before, after, hs⟩ := List.append_of_mem hzero
  have hhead : ∀ d, ((0 : UInt8) :: after).head? = some d → ¬ IsContinuation d := by
    simp [IsContinuation]
  obtain ⟨front, rest, ht, -, hrest⟩ := exists_of_encodeChars_eq_append hhead hs
  obtain ⟨rest, rfl, -⟩ := exists_of_encodeChars_eq_zero_cons hrest
  exact h (by simp [ht])

end FieldWords.Utf8
