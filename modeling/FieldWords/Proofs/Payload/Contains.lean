import FieldWords.Panic.Run
import FieldWords.Proofs.Payload.Message
import FieldWords.Proofs.Text.Boundary

/-!
# Messages inside payloads

A payload contains a message if the elements of the message stand in it one after the other
(`occursIn_iff`). Where they stand does not matter for the text: in front of the payload they spell
the bytes of the message, and behind other elements these bytes with zeros before them
(`exists_spelled_eq`). Since text is read whole out of arbitrary bytes, the message of the payload
has the contained one as a part (`containsMessage_iff_infix_and_substring`).
-/

namespace FieldWords.Payload

open Felt (ofShortBytes)

/-! ### Runs of elements -/

theorem occursIn_iff {α : Type} [DecidableEq α] (run xs : List α) :
    occursIn run xs = true ↔ ∃ pre suf, xs = pre ++ run ++ suf := by
  have hmem : occursIn run xs = true ↔ run <:+: xs := by
    induction xs with
    | nil => rw [occursIn, List.isEmpty_iff, List.infix_nil]
    | cons x xs ih =>
      rw [occursIn, Bool.or_eq_true, List.isPrefixOf_iff_prefix, ih, List.infix_cons_iff]
  rw [hmem]
  constructor
  · rintro ⟨pre, suf, h⟩
    exact ⟨pre, suf, h.symm⟩
  · rintro ⟨pre, suf, h⟩
    exact ⟨pre, suf, h.symm⟩

/-! ### What a contained message spells -/

/-- Behind other elements each element gives its last bytes. -/
theorem spelled_append {as : List Felt} (h : as ≠ []) (bs : List Felt) :
    spelled (as ++ bs) = spelled as ++ bs.flatMap lastBytes := by
  obtain ⟨a, as, rfl⟩ := List.exists_cons_of_ne_nil h
  rw [List.cons_append, spelled, spelled, List.flatMap_append, List.append_assoc]

/-- Behind other elements the head of a cut stands behind zeros. -/
theorem flatMap_lastBytes_cut {head : List UInt8} {tail : List (List UInt8)}
    (h : IsCut head tail) :
    ((head :: tail).map ofShortBytes).flatMap lastBytes =
      List.replicate (31 - head.length) 0 ++ (head ++ tail.flatten) := by
  have hhead : lastBytes (ofShortBytes head) = List.replicate (31 - head.length) 0 ++ head := by
    rw [lastBytes_eq, Felt.val_ofShortBytes h.head_le, Bytes.ofNat_value_of_length_le h.head_le]
  rw [List.map_cons, List.flatMap_cons, hhead, flatMap_lastBytes_map h.length_tail,
    List.append_assoc]

/-- A payload that contains a message spells it, perhaps behind zeros, between other bytes. -/
theorem exists_spelled_eq {q : String} (hne : Utf8.encode q ≠ [])
    (hq : q.toList.head? ≠ some '\x00') (pre suf : List Felt) :
    ∃ before zeros after, spelled (pre ++ (ofMessage q).values ++ suf) =
      before ++ (List.replicate zeros 0 ++ Utf8.encode q ++ after) := by
  obtain ⟨tail, hcut, hm⟩ := exists_cut hne
  rw [ofMessage_cut hcut hm]
  by_cases hpre : pre = []
  · -- the message comes first, so its head loses no byte
    have htrim : Bytes.trim (headBytes (Utf8.encode q)) = headBytes (Utf8.encode q) := by
      rw [Bytes.trim_eq_self_iff, head?_cut hcut hm, ne_eq, Utf8.head?_encode_eq_zero_iff]
      exact hq
    have hrun : (headBytes (Utf8.encode q) :: tail).map ofShortBytes ≠ [] := List.cons_ne_nil _ _
    refine ⟨[], 0, suf.flatMap lastBytes, ?_⟩
    rw [hpre, List.nil_append, spelled_append hrun, spelled_cut hcut, htrim, ← hm]
    rfl
  · refine ⟨spelled pre, 31 - (headBytes (Utf8.encode q)).length, suf.flatMap lastBytes, ?_⟩
    rw [List.append_assoc, spelled_append hpre, List.flatMap_append, flatMap_lastBytes_cut hcut,
      ← hm]

/-- The zeros before encoded text are text. -/
theorem replicate_zero_append_encode (k : ℕ) (q : String) :
    List.replicate k 0 ++ Utf8.encode q =
      Utf8.encodeChars (List.replicate k '\x00' ++ q.toList) := by
  have hzeros : Utf8.encodeChars (List.replicate k '\x00') = List.replicate k 0 := by
    induction k with
    | zero => rfl
    | succ k ih => rw [List.replicate_succ, Utf8.encodeChars_cons, ih]; rfl
  rw [Utf8.encodeChars_append, hzeros, Utf8.encode]

/-- The message of a payload has every message that the payload contains as a part. -/
theorem exists_message_eq {q : String} (hq : q.toList.head? ≠ some '\x00') (pre suf : List Felt) :
    ∃ s t, message ⟨pre ++ (ofMessage q).values ++ suf⟩ = s ++ q ++ t := by
  by_cases hne : Utf8.encode q = []
  · have hempty : q = "" := Utf8.encode_eq_nil_iff.mp hne
    exact ⟨"", message ⟨pre ++ (ofMessage q).values ++ suf⟩, by rw [hempty]; simp⟩
  · obtain ⟨before, zeros, after, hspelled⟩ := exists_spelled_eq hne hq pre suf
    have hcs : List.replicate zeros '\x00' ++ q.toList ≠ [] := by
      intro h
      rw [List.append_eq_nil_iff] at h
      exact hne (by rw [Utf8.encode, h.2]; rfl)
    obtain ⟨front, hfront⟩ := Utf8.exists_decodeFrom_eq_append hcs before
    refine ⟨String.ofList (front ++ List.replicate zeros '\x00'),
      String.ofList (Utf8.decodeFrom .between after), ?_⟩
    rw [message, Utf8.decodeLossy, hspelled, replicate_zero_append_encode, hfront]
    simp only [String.ofList_append, String.ofList_toList, String.append_assoc]

/-- **Contained messages.** A payload contains a message exactly if the elements of the message
stand in it one after the other; so what a failed assertion raises, alone or between any other
elements, contains the message of the assertion. If the message does not begin with a zero, it is
then a part of the text that the whole payload spells, even if the other elements spell no text. -/
theorem containsMessage_iff_infix_and_substring (p : Payload) (q : String) :
    (p.containsMessage q = true ↔
      ∃ pre suf, p.values = pre ++ (ofMessage q).values ++ suf) ∧
    (∃ raised, Panic.Run.assert false q = ⟨.error (.payload raised), [.raising raised]⟩ ∧
      ∀ pre suf, containsMessage ⟨pre ++ raised.values ++ suf⟩ q = true) ∧
    (p.containsMessage q = true → q.toList.head? ≠ some '\x00' →
      ∃ s t, p.message = s ++ q ++ t) := by
  refine ⟨occursIn_iff _ _, ⟨ofMessage q, rfl, fun pre suf => ?_⟩, fun hp hq => ?_⟩
  · exact (occursIn_iff _ _).mpr ⟨pre, suf, rfl⟩
  · obtain ⟨pre, suf, hvalues⟩ := (occursIn_iff _ _).mp hp
    obtain ⟨values⟩ := p
    subst hvalues
    exact exists_message_eq hq pre suf

/-- A message that fills its element, right behind the first byte of an unfinished character and
right before the second byte of another one; the element in front needs all its 32 bytes. -/
theorem containsMessage_between_unfinished_characters :
    let q := "é: letters beyond ASCII remain"
    let p : Payload := ⟨[Felt.ofNat (2 ^ 250 + 0xE2), (ofMessage q).values.headD Felt.zero,
      Felt.ofNat (0x82 * 2 ^ 240)]⟩
    (ofMessage q).values.length = 1 ∧ p.containsMessage q = true ∧
      q.toList.head? ≠ some '\x00' ∧ ∃ s t, p.message = s ++ q ++ t := by
  intro q p
  have hp : p.containsMessage q = true := by decide
  have hq : q.toList.head? ≠ some '\x00' := by decide
  exact ⟨by decide, hp, hq, (containsMessage_iff_infix_and_substring p q).2.2 hp hq⟩

end FieldWords.Payload
