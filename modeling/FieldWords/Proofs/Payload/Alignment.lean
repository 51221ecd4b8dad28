import FieldWords.Proofs.Payload.Contains

/-!
# Messages inside messages

The groups of a message are laid from its end, so groups of 31 bytes may be put behind any message
without moving the cuts in front of them (`messageGroups_append_of_dvd`). One message has the groups
of another one exactly where their bytes stand at such cuts, and nothing in front is left over
unless the inner message itself fills its groups (`messageGroups_infix_iff`). Without zeros in the
text the elements tell the groups (`map_significant_ofMessage`), and the bytes of a text are found
only where the text is; so the payload of a message contains the parts of the message that are
aligned in this way, and no others (`containsMessage_iff_exists_aligned`).
-/

namespace FieldWords.Payload

open Felt (ofShortBytes)

/-! ### Groups of a message -/

theorem flatten_messageGroups (bs : List UInt8) : (messageGroups bs).flatten = bs := by
  by_cases hne : bs = []
  · rw [hne]
    rfl
  · obtain ⟨tail, hcut, hbs⟩ := exists_cut hne
    rw [hbs, messageGroups_append hcut, List.flatten_cons]

theorem dvd_length_flatten {gs : List (List UInt8)} (h : ∀ g ∈ gs, g.length = 31) :
    31 ∣ gs.flatten.length := by
  rw [length_flatten_of_forall h]
  exact Nat.dvd_mul_left 31 gs.length

/-- All groups but the first are full. -/
theorem length_of_mem_tail_messageGroups {bs : List UInt8} :
    ∀ g ∈ (messageGroups bs).tail, g.length = 31 := by
  by_cases hne : bs = []
  · rw [hne]
    exact List.forall_mem_nil _
  · obtain ⟨tail, hcut, hbs⟩ := exists_cut hne
    rw [hbs, messageGroups_append hcut]
    exact hcut.length_tail

/-- Without a remainder the first group is full, too. -/
theorem length_of_mem_messageGroups_of_dvd {bs : List UInt8} (h : 31 ∣ bs.length) :
    ∀ g ∈ messageGroups bs, g.length = 31 := by
  have hmod : bs.length % 31 = 0 := Nat.mod_eq_zero_of_dvd h
  have hlen : bs.length = bs.length / 31 * 31 := (Nat.div_mul_cancel h).symm
  simp only [messageGroups, Felt.shortStringLength, hmod, List.take_zero, List.drop_zero,
    List.isEmpty_nil, if_true]
  exact Bytes.length_of_mem_groups hlen

/-- Bytes that fill groups do not move the groups in front of them. -/
theorem messageGroups_append_of_dvd {as bs : List UInt8} (ha : as ≠ []) (hb : 31 ∣ bs.length) :
    messageGroups (as ++ bs) = messageGroups as ++ messageGroups bs := by
  obtain ⟨tail, hcut, has⟩ := exists_cut ha
  have hwhole : IsCut (headBytes as) (tail ++ messageGroups bs) :=
    ⟨hcut.head_pos, hcut.head_le, List.forall_mem_append.mpr
      ⟨hcut.length_tail, length_of_mem_messageGroups_of_dvd hb⟩⟩
  have hflat : as ++ bs = headBytes as ++ (tail ++ messageGroups bs).flatten := by
    rw [List.flatten_append, flatten_messageGroups, ← List.append_assoc, ← has]
  have hgroups : messageGroups as = headBytes as :: tail := by
    conv_lhs => rw [has, messageGroups_append hcut]
  rw [hflat, messageGroups_append hwhole, hgroups, List.cons_append]

/-- The groups of a message stand among those of another one exactly where its bytes do, in front
of whole groups, and behind anything at all only as whole groups themselves. -/
theorem messageGroups_infix_iff {as bs : List UInt8} (ha : as ≠ []) :
    messageGroups as <:+: messageGroups bs ↔
      ∃ before after, bs = before ++ (as ++ after) ∧ 31 ∣ after.length ∧
        (before = [] ∨ 31 ∣ as.length) := by
  constructor
  · rintro ⟨pre, suf, hgroups⟩
    have hflat : bs = pre.flatten ++ (as ++ suf.flatten) := by
      rw [← flatten_messageGroups bs, ← hgroups, List.flatten_append, List.flatten_append,
        flatten_messageGroups, List.append_assoc]
    have hne : messageGroups as ≠ [] := fun h => ha (by rw [← flatten_messageGroups as, h]; rfl)
    -- the first group of the outer message is the only one that may have fewer bytes
    have hfull : ∀ g ∈ (pre ++ messageGroups as ++ suf).tail, g.length = 31 :=
      hgroups ▸ length_of_mem_tail_messageGroups
    rw [List.tail_append_of_ne_nil (List.append_ne_nil_of_right_ne_nil pre hne),
      List.forall_mem_append] at hfull
    obtain ⟨hinner, hsuf⟩ := hfull
    refine ⟨pre.flatten, suf.flatten, hflat, dvd_length_flatten hsuf, ?_⟩
    by_cases hpre : pre = []
    · exact Or.inl (by rw [hpre]; rfl)
    · rw [List.tail_append_of_ne_nil hpre, List.forall_mem_append] at hinner
      rw [← flatten_messageGroups as]
      exact Or.inr (dvd_length_flatten hinner.2)
  · rintro ⟨before, after, rfl, hafter, hbefore⟩
    have hinner : messageGroups (as ++ after) = messageGroups as ++ messageGroups after :=
      messageGroups_append_of_dvd ha hafter
    by_cases hb : before = []
    · rw [hb, List.nil_append, hinner]
      exact (List.prefix_append _ _).isInfix
    · have hlen : 31 ∣ (as ++ after).length := by
        rw [List.length_append]
        exact Nat.dvd_add (hbefore.resolve_left hb) hafter
      rw [messageGroups_append_of_dvd hb hlen, hinner]
      exact ⟨messageGroups before, messageGroups after, by rw [List.append_assoc]⟩

/-! ### Elements and groups -/

/-- Without a zero in the text, the significant bytes of its elements are its groups. -/
theorem map_significant_ofMessage {m : String} (h : '\x00' ∉ m.toList) :
    (ofMessage m).values.map (fun a => Bytes.trim a.toBytes) = messageGroups (Utf8.encode m) := by
  have hgroup : ∀ g ∈ messageGroups (Utf8.encode m),
      Bytes.trim (ofShortBytes g).toBytes = g := by
    intro g hg
    have hzero : 0 ∉ g := fun h0 => Utf8.zero_notMem_encode h (by
      rw [← flatten_messageGroups (Utf8.encode m)]
      exact List.mem_flatten.mpr ⟨g, hg, h0⟩)
    rw [trim_toBytes_ofShortBytes (length_of_mem_messageGroups g hg), Bytes.trim_eq_self_iff]
    exact fun hhead => hzero (List.mem_of_mem_head? hhead)
  rw [ofMessage, List.map_map]
  exact (List.map_congr_left hgroup).trans (List.map_id _)

/-- Between texts without zeros, containing elements is containing groups. -/
theorem containsMessage_iff_infix_messageGroups {t q : String} (ht : '\x00' ∉ t.toList)
    (hq : '\x00' ∉ q.toList) :
    (ofMessage t).containsMessage q = true ↔
      messageGroups (Utf8.encode q) <:+: messageGroups (Utf8.encode t) := by
  have hoccurs : (ofMessage t).containsMessage q = true ↔
      (ofMessage q).values <:+: (ofMessage t).values := by
    rw [containsMessage, occursIn_iff]
    exact exists_congr fun pre => exists_congr fun suf => eq_comm
  rw [hoccurs]
  constructor
  · intro h
    rw [← map_significant_ofMessage ht, ← map_significant_ofMessage hq]
    exact h.map _
  · intro h
    exact h.map ofShortBytes

/-! ### Aligned parts -/

/-- What a message contains are its parts from one cut between groups to another. -/
theorem containsMessage_iff_exists_aligned {t q : String} (ht : '\x00' ∉ t.toList)
    (hq : '\x00' ∉ q.toList) (hne : q ≠ "") :
    (ofMessage t).containsMessage q = true ↔
      ∃ u w, t = u ++ q ++ w ∧ 31 ∣ (Utf8.encode w).length ∧
        (u = "" ∨ 31 ∣ (Utf8.encode q).length) := by
  have hbytes : Utf8.encode q ≠ [] := Utf8.encode_eq_nil_iff.not.mpr hne
  rw [containsMessage_iff_infix_messageGroups ht hq, messageGroups_infix_iff hbytes]
  constructor
  · rintro ⟨before, after, hbs, hafter, hbefore⟩
    obtain ⟨u, w, rfl, rfl, rfl⟩ := Utf8.exists_of_encode_eq_append hne hbs
    exact ⟨u, w, rfl, hafter, hbefore.imp_left Utf8.encode_eq_nil_iff.mp⟩
  · rintro ⟨u, w, rfl, hw, hu⟩
    refine ⟨Utf8.encode u, Utf8.encode w, ?_, hw, hu.imp_left Utf8.encode_eq_nil_iff.mpr⟩
    rw [Utf8.encode_append, Utf8.encode_append, List.append_assoc]

/-- In a message of at most 31 bytes nothing but the whole is aligned. -/
theorem eq_of_aligned {t q u w : String} (hne : q ≠ "") (ht : t = u ++ q ++ w)
    (hlen : (Utf8.encode t).length ≤ 31) (hw : 31 ∣ (Utf8.encode w).length)
    (hu : u = "" ∨ 31 ∣ (Utf8.encode q).length) : q = t := by
  have hpos : 0 < (Utf8.encode q).length :=
    List.length_pos_iff.mpr (Utf8.encode_eq_nil_iff.not.mpr hne)
  rw [ht, Utf8.encode_append, Utf8.encode_append, List.length_append, List.length_append] at hlen
  have hwnil : w = "" := by
    rw [← Utf8.encode_eq_nil_iff, ← List.length_eq_zero_iff]
    exact Nat.eq_zero_of_dvd_of_lt hw (by omega)
  have hunil : u = "" := by
    rcases hu with hu | hq
    · exact hu
    · have hfull := Nat.le_of_dvd hpos hq
      rw [← Utf8.encode_eq_nil_iff, ← List.length_eq_zero_iff]
      omega
  rw [ht, hwnil, hunil, String.append_empty, String.empty_append]

/-- **Messages inside messages.** For texts without zeros, and one that is not empty, the payload of
a message contains another one exactly if that is a part of it, has groups of 31 bytes alone behind
it, and either begins the message or fills its own groups. So a message of at most 31 bytes contains
itself alone, and a longer one each of its ends whose bytes are a multiple of 31. -/
theorem ofMessage_contains_aligned_parts {t q : String} (ht : '\x00' ∉ t.toList)
    (hq : '\x00' ∉ q.toList) (hne : q ≠ "") :
    ((ofMessage t).containsMessage q = true ↔
      ∃ u w, t = u ++ q ++ w ∧ 31 ∣ (Utf8.encode w).length ∧
        (u = "" ∨ 31 ∣ (Utf8.encode q).length)) ∧
    ((Utf8.encode t).length ≤ 31 → ((ofMessage t).containsMessage q = true ↔ q = t)) ∧
    (∀ u, t = u ++ q → 31 ∣ (Utf8.encode q).length →
      (ofMessage t).containsMessage q = true) := by
  have haligned := containsMessage_iff_exists_aligned ht hq hne
  refine ⟨haligned, fun hlen => haligned.trans ⟨?_, ?_⟩, fun u hu hdvd => haligned.mpr ?_⟩
  · rintro ⟨u, w, huw, hw, hu⟩
    exact eq_of_aligned hne huw hlen hw hu
  · rintro rfl
    exact ⟨"", "", by simp, Nat.dvd_zero 31, Or.inl rfl⟩
  · exact ⟨u, "", by rw [hu, String.append_empty], Nat.dvd_zero 31, Or.inr hdvd⟩

/-- An end of 31 bytes is found behind a word, although it begins and ends with characters of two
bytes; alone it contains no word of its own. -/
theorem ofMessage_contains_aligned_parts_accented_end :
    let last := "énd of a message, 31 bytes: é"
    let word := "bytes"
    (Utf8.encode last).length = 31 ∧ '\x00' ∉ ("word " ++ last).toList ∧ '\x00' ∉ last.toList ∧
      '\x00' ∉ word.toList ∧ last ≠ "" ∧ word ≠ "" ∧
      (ofMessage ("word " ++ last)).containsMessage last = true ∧
      ¬ (ofMessage last).containsMessage word = true := by
  intro last word
  have hlen : (Utf8.encode last).length = 31 := by decide
  have hwhole : '\x00' ∉ ("word " ++ last).toList := by decide
  have hlast : '\x00' ∉ last.toList := by decide
  have hword : '\x00' ∉ word.toList := by decide
  have hlastne : last ≠ "" := by decide
  have hwordne : word ≠ "" := by decide
  obtain ⟨-, -, hends⟩ := ofMessage_contains_aligned_parts hwhole hlast hlastne
  obtain ⟨-, hshort, -⟩ := ofMessage_contains_aligned_parts hlast hword hwordne
  refine ⟨hlen, hwhole, hlast, hword, hlastne, hwordne, hends "word " rfl (by rw [hlen]), ?_⟩
  rw [hshort hlen.le]
  decide

end FieldWords.Payload
