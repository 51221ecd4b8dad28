import FieldWords.Proofs.Felt.Words
import FieldWords.Proofs.Text.Ascii

/-!
# Short strings

An ASCII text of at most 31 bytes is an element, with the number that its bytes write
(`ofShortString_eq_ok`), and what is read back is the text without the zeros in front, if all of
that is printable (`toShortString_eq_some_iff`). Reading back looks at all 32 bytes of an element,
one more than a text may have. But the first of them is at most 8, which is not printable; so every
text that is read from an element is short enough to be that element again
(`ofShortString_of_toShortString`).
-/

namespace FieldWords.Felt

open Utf8 (IsAscii)

/-! ### From text -/

theorem all_lt_iff (bs : List UInt8) : bs.all (· < 0x80) = true ↔ IsAscii bs := by
  simp [IsAscii]

theorem ofShortString_of_isAscii {s : String} (h : IsAscii (Utf8.encode s)) :
    ofShortString s =
      if 31 < (Utf8.encode s).length then .error (.shortStringTooLong (Utf8.encode s).length)
      else .ok (ofShortBytes (Utf8.encode s)) := by
  rw [ofShortString, (all_lt_iff _).mpr h]
  rfl

/-- Whether a text is ASCII is asked before its length is. -/
theorem ofShortString_of_not_isAscii {s : String} (h : ¬ IsAscii (Utf8.encode s)) :
    ofShortString s = .error .nonAscii := by
  have hall : (Utf8.encode s).all (· < 0x80) = false := by
    rw [← Bool.not_eq_true, all_lt_iff]
    exact h
  rw [ofShortString, hall]
  rfl

theorem ofShortString_eq_nonAscii_iff {s : String} :
    ofShortString s = .error .nonAscii ↔ ¬ IsAscii (Utf8.encode s) := by
  by_cases h : IsAscii (Utf8.encode s)
  · rw [ofShortString_of_isAscii h]
    split <;> simp [h]
  · exact iff_of_true (ofShortString_of_not_isAscii h) h

theorem ofShortString_eq_shortStringTooLong_iff {s : String} {n : ℕ}
    (h : IsAscii (Utf8.encode s)) :
    ofShortString s = .error (.shortStringTooLong n) ↔
      31 < (Utf8.encode s).length ∧ (Utf8.encode s).length = n := by
  rw [ofShortString_of_isAscii h]
  split_ifs with hlen
  · simp [hlen]
  · simp [hlen]

/-- An ASCII text of at most 31 bytes is the element of its bytes. -/
theorem ofShortString_eq_ok {s : String} (h : IsAscii (Utf8.encode s))
    (hlen : (Utf8.encode s).length ≤ 31) :
    ofShortString s = .ok (ofShortBytes (Utf8.encode s)) := by
  rw [ofShortString_of_isAscii h, if_neg (Nat.not_lt_of_le hlen)]

/-! ### To text -/

/-- Bytes that show as a character of their own: from the space to the tilde. -/
def IsPrintable (b : UInt8) : Prop := 0x20 ≤ b ∧ b ≤ 0x7E

theorem all_isPrintable_iff (bs : List UInt8) :
    bs.all isPrintable = true ↔ ∀ b ∈ bs, IsPrintable b := by
  have hb : ∀ b, isPrintable b = true ↔ IsPrintable b := by
    intro b
    simp only [isPrintable, IsPrintable, Bool.and_eq_true, decide_eq_true_eq, UInt8.lt_iff_toNat_lt,
      UInt8.le_iff_toNat_le]
    exact and_congr_right fun _ => Nat.lt_succ_iff
  rw [List.all_eq_true]
  exact forall₂_congr fun b _ => hb b

theorem isAscii_of_isPrintable {bs : List UInt8} (h : ∀ b ∈ bs, IsPrintable b) : IsAscii bs :=
  fun b hb => UInt8.lt_of_le_of_lt (h b hb).2 (by decide)

/-- The text of an element is the one of its significant bytes, all of them printable. -/
theorem toShortString_eq_some_iff {a : Felt} {t : String} :
    a.toShortString = some t ↔
      (∀ b ∈ Bytes.trim a.toBytes, IsPrintable b) ∧ Utf8.encode t = Bytes.trim a.toBytes := by
  rw [toShortString]
  by_cases hall : ∀ b ∈ Bytes.trim a.toBytes, IsPrintable b
  · have hback := Utf8.encodeChars_map_charOf (isAscii_of_isPrintable hall)
    rw [if_pos ((all_isPrintable_iff _).mpr hall), and_iff_right hall, Option.some.injEq]
    constructor
    · rintro rfl
      rw [Utf8.encode, String.toList_ofList]
      exact hback
    · intro h
      apply Utf8.encode_injective
      rw [h, Utf8.encode, String.toList_ofList]
      exact hback
  · rw [if_neg ((all_isPrintable_iff _).not.mpr hall)]
    exact iff_of_false (by simp) fun h => hall h.1

theorem toShortString_eq_none_iff {a : Felt} :
    a.toShortString = none ↔ ¬ ∀ b ∈ Bytes.trim a.toBytes, IsPrintable b := by
  rw [← all_isPrintable_iff, toShortString]
  split
  · next h => simp [h]
  · next h => simp [h]

/-! ### There and back -/

/-- Of 32 significant bytes the first one is not printable. -/
theorem length_trim_le_of_isPrintable {a : Felt} (h : ∀ b ∈ Bytes.trim a.toBytes, IsPrintable b) :
    (Bytes.trim a.toBytes).length ≤ 31 := by
  by_contra hlong
  have hlen : (Bytes.trim a.toBytes).length = a.toBytes.length := by
    have hle := Bytes.length_trim_le a.toBytes
    rw [length_toBytes] at hle ⊢
    omega
  have htrim : Bytes.trim a.toBytes = a.toBytes :=
    (List.dropWhile_suffix _).eq_of_length hlen
  obtain ⟨b, hb, hle⟩ := exists_head?_toBytes a
  rw [htrim] at h
  have hprint : 0x20 ≤ b := (h b (List.mem_of_mem_head? hb)).1
  exact absurd (UInt8.le_trans hprint hle) (by decide)

/-- Printable text of an element is read as the element. -/
theorem ofShortString_of_toShortString {a : Felt} {t : String} (h : a.toShortString = some t) :
    ofShortString t = .ok a ∧ (Utf8.encode t).length ≤ 31 := by
  obtain ⟨hprint, ht⟩ := toShortString_eq_some_iff.mp h
  have hlen := length_trim_le_of_isPrintable hprint
  have hascii := isAscii_of_isPrintable hprint
  rw [← ht] at hlen hascii
  refine ⟨?_, hlen⟩
  rw [ofShortString_eq_ok hascii hlen, Except.ok.injEq]
  apply val_injective
  rw [val_ofShortBytes hlen, ht, Bytes.value_trim, value_toBytes]

/-- The significant bytes of a short text's element are the text without the zeros in front. -/
theorem trim_toBytes_ofShortBytes_encode {s : String} (hlen : (Utf8.encode s).length ≤ 31) :
    Bytes.trim (ofShortBytes (Utf8.encode s)).toBytes = Utf8.encode (Utf8.withoutZeros s) := by
  rw [Payload.trim_toBytes_ofShortBytes hlen, Utf8.encode_withoutZeros]

/-- **Short strings.** A text that is not ASCII is no element, and an ASCII text is none exactly if it
has more than 31 bytes; otherwise it is the element with the number of its bytes. That element gives
back the text without the zeros in front, if all the rest is printable, and no text otherwise; and it
is all the payload of the message with this text, unless the text is empty. In turn, a text that an
element gives back is at most 31 bytes long and read as this element, and it is the message of the
payload that has the element alone. -/
theorem shortString_there_and_back :
    (∀ s, ofShortString s = .error .nonAscii ↔ ∃ b ∈ Utf8.encode s, 0x80 ≤ b) ∧
    (∀ s, (∀ b ∈ Utf8.encode s, b < 0x80) →
      (∀ n, ofShortString s = .error (.shortStringTooLong n) ↔
        31 < (Utf8.encode s).length ∧ (Utf8.encode s).length = n) ∧
      ((Utf8.encode s).length ≤ 31 → ∃ a,
        ofShortString s = .ok a ∧ a.val = Bytes.value (Utf8.encode s) ∧
        (a.toShortString = some (Utf8.withoutZeros s) ↔
          ∀ b ∈ Utf8.encode (Utf8.withoutZeros s), 0x20 ≤ b ∧ b ≤ 0x7E) ∧
        (a.toShortString = none ↔
          ¬ ∀ b ∈ Utf8.encode (Utf8.withoutZeros s), 0x20 ≤ b ∧ b ≤ 0x7E) ∧
        (s ≠ "" → Payload.ofMessage s = ⟨[a]⟩))) ∧
    (∀ (a : Felt) (t : String), a.toShortString = some t →
      ofShortString t = .ok a ∧ (Utf8.encode t).length ≤ 31 ∧ Payload.message ⟨[a]⟩ = t) := by
  refine ⟨fun s => ?_, fun s hascii => ⟨fun n => ?_, fun hlen => ?_⟩, fun a t h => ?_⟩
  · rw [ofShortString_eq_nonAscii_iff, IsAscii]
    simp only [not_forall, UInt8.not_lt, exists_prop]
  · exact ofShortString_eq_shortStringTooLong_iff hascii
  · refine ⟨_, ofShortString_eq_ok hascii hlen, val_ofShortBytes hlen, ?_, ?_,
      fun hne => Payload.ofMessage_of_length_le hne hlen⟩
    · rw [toShortString_eq_some_iff, trim_toBytes_ofShortBytes_encode hlen]
      exact and_iff_left rfl
    · rw [toShortString_eq_none_iff, trim_toBytes_ofShortBytes_encode hlen]
      rfl
  · obtain ⟨hback, hlen⟩ := ofShortString_of_toShortString h
    refine ⟨hback, hlen, Payload.message_eq_of_spelled ?_⟩
    rw [Payload.spelled, List.flatMap_nil, List.append_nil]
    exact (toShortString_eq_some_iff.mp h).2.symm

/-- Two zeros in front are lost on the way: the text read back is the same element without them. -/
theorem shortString_there_and_back_zeros_in_front :
    let s := "\x00\x00key ~"
    let a := ofNat 0x6B6579207E
    (∀ b ∈ Utf8.encode s, b < 0x80) ∧ (Utf8.encode s).length ≤ 31 ∧ ofShortString s = .ok a ∧
      a.toShortString = some "key ~" ∧ ofShortString "key ~" = .ok a ∧
      Payload.message ⟨[a]⟩ = "key ~" := by
  intro s a
  have hascii : ∀ b ∈ Utf8.encode s, b < 0x80 := by decide +kernel
  have hlen : (Utf8.encode s).length ≤ 31 := by decide
  have hread : ofShortString s = .ok a := by decide +kernel
  obtain ⟨-, hshort, hback⟩ := shortString_there_and_back
  obtain ⟨b, hb, -, hsome, -⟩ := (hshort s hascii).2 hlen
  obtain rfl : b = a := Except.ok.inj (hb.symm.trans hread)
  have hrest : Utf8.withoutZeros s = "key ~" := by decide
  rw [hrest] at hsome
  have htext : a.toShortString = some "key ~" := hsome.mpr (by decide +kernel)
  exact ⟨hascii, hlen, hread, htext, (hback a "key ~" htext).1, (hback a "key ~" htext).2.2⟩

end FieldWords.Felt
