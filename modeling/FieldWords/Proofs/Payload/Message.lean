import Mathlib.Data.List.Basic
import Mathlib.Algebra.Order.Ring.Nat
import FieldWords.Panic.Payload
import FieldWords.Proofs.Bytes

/-!
# Messages in payloads

The bytes of a message are cut into a head of at most 31 bytes and groups of exactly 31 behind it; a
byte string that is not empty has only one such cut (`messageGroups_append`, `exists_cut`). The
elements of a cut spell its bytes again, but for leading zeros of the head (`spelled_cut`). So a
message comes back unless it begins with a zero (`message_ofMessage`), and a payload comes back
exactly if its first element is not zero, no element needs more than 31 bytes and what the elements
spell is text (`ofMessage_message_iff`).
-/

namespace FieldWords.Payload

open Felt (ofShortBytes)

/-! ### Cuts -/

/-- The head of a message and the groups behind it. -/
structure IsCut (head : List UInt8) (tail : List (List UInt8)) : Prop where
  head_pos : 0 < head.length
  head_le : head.length ≤ 31
  length_tail : ∀ g ∈ tail, g.length = 31

/-- How many bytes of a message of `n` bytes stand in its first element: the remainder modulo 31,
or 31 if there is none and the message is not empty. -/
def headLength (n : ℕ) : ℕ := if n % 31 = 0 then min 31 n else n % 31

/-- The bytes of a message in its first element. -/
def headBytes (bs : List UInt8) : List UInt8 := bs.take (headLength bs.length)

/-- The bytes of a message in its later elements. -/
def laterBytes (bs : List UInt8) : List UInt8 := bs.drop (headLength bs.length)

theorem headBytes_append_laterBytes (bs : List UInt8) : headBytes bs ++ laterBytes bs = bs :=
  List.take_append_drop _ bs

theorem length_flatten_of_forall {gs : List (List UInt8)} (h : ∀ g ∈ gs, g.length = 31) :
    gs.flatten.length = gs.length * 31 := by
  induction gs with
  | nil => rfl
  | cons g gs ih =>
    obtain ⟨hg, hgs⟩ := List.forall_mem_cons.mp h
    rw [List.flatten_cons, List.length_append, hg, ih hgs, List.length_cons]
    omega

/-- The groups of a message are the parts of its cut. -/
theorem messageGroups_append {head : List UInt8} {tail : List (List UInt8)} (h : IsCut head tail) :
    messageGroups (head ++ tail.flatten) = head :: tail := by
  have hpos := h.head_pos
  have hle := h.head_le
  have hlen : (head ++ tail.flatten).length = head.length + tail.length * 31 := by
    rw [List.length_append, length_flatten_of_forall h.length_tail]
  by_cases hfull : head.length = 31
  · -- there is no remainder: the head is a group like the others
    have hmod : (head ++ tail.flatten).length % 31 = 0 := by omega
    have hdiv : (head ++ tail.flatten).length / 31 = (head :: tail).length := by
      rw [List.length_cons]
      omega
    have hgroups := Bytes.groups_flatten (List.forall_mem_cons.mpr ⟨hfull, h.length_tail⟩)
    rw [List.flatten_cons] at hgroups
    simp only [messageGroups, Felt.shortStringLength, hmod, hdiv, List.take_zero, List.drop_zero,
      List.isEmpty_nil, if_true]
    exact hgroups
  · -- the head is the remainder
    have hmod : (head ++ tail.flatten).length % 31 = head.length := by omega
    have hdiv : (head ++ tail.flatten).length / 31 = tail.length := by omega
    have hne : head.isEmpty = false := by
      rw [List.isEmpty_eq_false_iff, ← List.length_pos_iff]
      exact hpos
    simp only [messageGroups, Felt.shortStringLength, hmod, hdiv, List.take_left', List.drop_left',
      hne, Bytes.groups_flatten h.length_tail]
    rfl

/-- Bytes that are not empty have a cut. -/
theorem exists_cut {bs : List UInt8} (h : bs ≠ []) :
    ∃ tail, IsCut (headBytes bs) tail ∧ bs = headBytes bs ++ tail.flatten := by
  have hpos : 0 < bs.length := List.length_pos_iff.mpr h
  have hbounds : 0 < headLength bs.length ∧ headLength bs.length ≤ 31 ∧
      headLength bs.length ≤ bs.length ∧ (bs.length - headLength bs.length) % 31 = 0 := by
    unfold headLength
    split <;> omega
  obtain ⟨h0, h31, hle, hmod⟩ := hbounds
  have hhead : (headBytes bs).length = headLength bs.length := by
    rw [headBytes, List.length_take, Nat.min_eq_left hle]
  have hlater : (laterBytes bs).length = (bs.length - headLength bs.length) / 31 * 31 := by
    rw [laterBytes, List.length_drop]
    omega
  refine ⟨Bytes.groups 31 ((bs.length - headLength bs.length) / 31) (laterBytes bs), ⟨?_, ?_, ?_⟩,
    ?_⟩
  · rwa [hhead]
  · rwa [hhead]
  · exact Bytes.length_of_mem_groups hlater
  · rw [Bytes.flatten_groups, ← hlater, List.take_length, headBytes_append_laterBytes]

theorem length_of_mem_messageGroups {bs : List UInt8} : ∀ g ∈ messageGroups bs, g.length ≤ 31 := by
  by_cases hne : bs = []
  · rw [hne]
    exact List.forall_mem_nil _
  · obtain ⟨tail, hcut, hbs⟩ := exists_cut hne
    rw [hbs, messageGroups_append hcut]
    exact List.forall_mem_cons.mpr ⟨hcut.head_le, fun g hg => (hcut.length_tail g hg).le⟩

/-! ### What elements spell -/

/-- At most 31 bytes are below `2 ^ 248`. -/
theorem val_ofShortBytes_lt {bs : List UInt8} (h : bs.length ≤ 31) :
    (ofShortBytes bs).val < 2 ^ 248 := by
  rw [Felt.val_ofShortBytes h]
  exact (Bytes.value_lt_of_length_le h).trans_eq (by decide)

theorem trim_toBytes_ofShortBytes {bs : List UInt8} (h : bs.length ≤ 31) :
    Bytes.trim (ofShortBytes bs).toBytes = Bytes.trim bs := by
  rw [Felt.toBytes, Felt.val_ofShortBytes h, Bytes.trim_ofNat_value (by omega)]

theorem lastBytes_eq (a : Felt) : lastBytes a = Bytes.ofNat 31 a.val :=
  Bytes.drop_ofNat 1 31 a.val

theorem lastBytes_ofShortBytes {bs : List UInt8} (h : bs.length = 31) :
    lastBytes (ofShortBytes bs) = bs := by
  rw [lastBytes_eq, Felt.val_ofShortBytes h.le, ← h, Bytes.ofNat_value]

/-- Groups of 31 bytes come back from the last bytes of their elements. -/
theorem flatMap_lastBytes_map {gs : List (List UInt8)} (h : ∀ g ∈ gs, g.length = 31) :
    (gs.map ofShortBytes).flatMap lastBytes = gs.flatten := by
  rw [List.flatMap_map, ← List.flatMap_id]
  exact List.flatMap_congr fun g hg => lastBytes_ofShortBytes (h g hg)

/-- The elements of a cut spell its bytes, but for leading zeros of the head. -/
theorem spelled_cut {head : List UInt8} {tail : List (List UInt8)} (h : IsCut head tail) :
    spelled ((head :: tail).map ofShortBytes) = Bytes.trim head ++ tail.flatten := by
  rw [List.map_cons, spelled, trim_toBytes_ofShortBytes h.head_le,
    flatMap_lastBytes_map h.length_tail]

/-- An element below `2 ^ 248` is that of its significant bytes. -/
theorem ofShortBytes_trim_toBytes {a : Felt} (h : a.val < 2 ^ 248) :
    ofShortBytes (Bytes.trim a.toBytes) = a := by
  apply Felt.val_injective
  have hlen : (Bytes.trim a.toBytes).length ≤ 31 :=
    Bytes.length_trim_ofNat_le (h.trans_eq (by decide)) (by decide)
  rw [Felt.val_ofShortBytes hlen, Bytes.value_trim, Felt.value_toBytes]

theorem ofShortBytes_lastBytes {a : Felt} (h : a.val < 2 ^ 248) :
    ofShortBytes (lastBytes a) = a := by
  apply Felt.val_injective
  have hlt : a.val < 256 ^ 31 := h.trans_eq (by decide)
  rw [Felt.val_ofShortBytes (by rw [lastBytes_eq, Bytes.length_ofNat]; decide), lastBytes_eq,
    Bytes.value_ofNat_of_lt hlt]

/-! ### There and back -/

/-- A text that is not empty is spelled by the cut of its bytes. -/
theorem ofMessage_cut {m : String} {head : List UInt8} {tail : List (List UInt8)}
    (h : IsCut head tail) (hm : Utf8.encode m = head ++ tail.flatten) :
    (ofMessage m).values = (head :: tail).map ofShortBytes := by
  rw [ofMessage, hm, messageGroups_append h]

/-- A message of at most 31 bytes is one element. -/
theorem ofMessage_of_length_le {m : String} (hne : m ≠ "") (hlen : (Utf8.encode m).length ≤ 31) :
    ofMessage m = ⟨[ofShortBytes (Utf8.encode m)]⟩ := by
  have hcut : IsCut (Utf8.encode m) [] :=
    ⟨List.length_pos_iff.mpr (Utf8.encode_eq_nil_iff.not.mpr hne), hlen, List.forall_mem_nil _⟩
  exact congrArg Payload.mk (ofMessage_cut hcut (List.append_nil _).symm)

theorem values_ofMessage_eq_nil_iff {m : String} :
    (ofMessage m).values = [] ↔ Utf8.encode m = [] := by
  constructor
  · intro h
    by_contra hne
    obtain ⟨tail, hcut, hm⟩ := exists_cut hne
    rw [ofMessage_cut hcut hm] at h
    cases h
  · intro h
    rw [ofMessage, h]
    rfl

theorem message_eq_of_spelled {p : Payload} {m : String} (h : spelled p.values = Utf8.encode m) :
    p.message = m := by
  rw [message, h, Utf8.decodeLossy_encode]

/-- The message that comes back has the bytes of the cut, without leading zeros of the head. -/
theorem encode_message_ofMessage {m : String} {head : List UInt8} {tail : List (List UInt8)}
    (h : IsCut head tail) (hm : Utf8.encode m = head ++ tail.flatten) :
    Utf8.encode (ofMessage m).message = Bytes.trim head ++ tail.flatten := by
  obtain ⟨t, ht⟩ := Utf8.exists_text_trim_append hm
  have hspelled : spelled (ofMessage m).values = Utf8.encode t := by
    rw [ofMessage_cut h hm, spelled_cut h, ht]
  rw [message_eq_of_spelled hspelled, ht]

/-- A message comes back whole exactly if its head has no leading zero. -/
theorem message_ofMessage_eq_iff {m : String} {head : List UInt8} {tail : List (List UInt8)}
    (h : IsCut head tail) (hm : Utf8.encode m = head ++ tail.flatten) :
    (ofMessage m).message = m ↔ Bytes.trim head = head := by
  have hback := encode_message_ofMessage h hm
  constructor
  · intro heq
    rw [heq, hm] at hback
    exact (List.append_cancel_right hback).symm
  · intro heq
    rw [heq, ← hm] at hback
    exact Utf8.encode_injective hback

theorem head?_cut {m : String} {head : List UInt8} {tail : List (List UInt8)}
    (h : IsCut head tail) (hm : Utf8.encode m = head ++ tail.flatten) :
    head.head? = (Utf8.encode m).head? := by
  rw [hm, List.head?_append_of_ne_nil _ (List.length_pos_iff.mp h.head_pos)]

theorem val_ofMessage_lt (m : String) : ∀ a ∈ (ofMessage m).values, a.val < 2 ^ 248 := by
  rw [ofMessage, List.forall_mem_map]
  exact fun g hg => val_ofShortBytes_lt (length_of_mem_messageGroups g hg)

/-- The number of elements is that of the bytes in groups of 31, rounded up. -/
theorem length_ofMessage (m : String) :
    (ofMessage m).values.length = ((Utf8.encode m).length + 30) / 31 := by
  by_cases hne : Utf8.encode m = []
  · rw [values_ofMessage_eq_nil_iff.mpr hne, hne]
    rfl
  · obtain ⟨tail, hcut, hm⟩ := exists_cut hne
    have hlen := congrArg List.length hm
    rw [List.length_append, length_flatten_of_forall hcut.length_tail] at hlen
    have hpos := hcut.head_pos
    have hle := hcut.head_le
    rw [ofMessage_cut hcut hm, List.length_map, List.length_cons]
    omega

/-- **A message comes back but for leading zeros of its first element.** A message of `n` bytes has
`n / 31` elements, rounded up, each below `2 ^ 248`. Reading them back drops the zero bytes in front
of the message as far as they stand in the first element, and nothing else; so the message comes
back whole exactly if it does not begin with a zero. -/
theorem message_ofMessage (m : String) :
    (ofMessage m).values.length = ((Utf8.encode m).length + 30) / 31 ∧
    (∀ a ∈ (ofMessage m).values, a.val < 2 ^ 248) ∧
    Utf8.encode (ofMessage m).message =
      Bytes.trim (headBytes (Utf8.encode m)) ++ laterBytes (Utf8.encode m) ∧
    ((ofMessage m).message = m ↔ m.toList.head? ≠ some '\x00') := by
  refine ⟨length_ofMessage m, val_ofMessage_lt m, ?_⟩
  rw [ne_eq, ← Utf8.head?_encode_eq_zero_iff]
  by_cases hne : Utf8.encode m = []
  · have hback : (ofMessage m).message = m :=
      message_eq_of_spelled (by rw [values_ofMessage_eq_nil_iff.mpr hne, hne]; rfl)
    rw [hback, hne]
    exact ⟨rfl, iff_of_true rfl nofun⟩
  · obtain ⟨tail, hcut, hm⟩ := exists_cut hne
    have hlater : tail.flatten = laterBytes (Utf8.encode m) :=
      List.append_cancel_left (hm.symm.trans (headBytes_append_laterBytes _).symm)
    constructor
    · rw [encode_message_ofMessage hcut hm, hlater]
    · rw [message_ofMessage_eq_iff hcut hm, Bytes.trim_eq_self_iff, head?_cut hcut hm]

/-- The elements of a cut without leading zeros begin with an element that is not zero. -/
theorem ofShortBytes_ne_zero {head : List UInt8} (hpos : 0 < head.length) (hle : head.length ≤ 31)
    (h : Bytes.trim head = head) : ofShortBytes head ≠ Felt.zero := by
  intro hz
  have hval : Bytes.value head = 0 := by
    rw [← Felt.val_ofShortBytes hle, hz]
    rfl
  rw [← Bytes.trim_eq_nil_iff, h] at hval
  rw [hval] at hpos
  exact Nat.lt_irrefl 0 hpos

/-- The significant bytes of the first element, and 31 bytes of each other one, are a cut. -/
theorem isCut_spelled {a : Felt} {rest : List Felt} (ha : a ≠ Felt.zero) (hlt : a.val < 2 ^ 248) :
    IsCut (Bytes.trim a.toBytes) (rest.map lastBytes) where
  head_pos := by
    rw [List.length_pos_iff, ne_eq, Bytes.trim_eq_nil_iff, Felt.value_toBytes]
    exact fun h => ha (Felt.val_injective h)
  head_le := Bytes.length_trim_ofNat_le (hlt.trans_eq (by decide)) (by decide)
  length_tail := by
    intro g hg
    obtain ⟨b, -, rfl⟩ := List.mem_map.mp hg
    rw [lastBytes_eq, Bytes.length_ofNat]

/-- A message that comes back has elements that spell it, the first of which is not zero. -/
theorem spelled_ofMessage_of_eq {m : String} (hne : Utf8.encode m ≠ [])
    (h : (ofMessage m).message = m) :
    (ofMessage m).values.head? ≠ some Felt.zero ∧
      spelled (ofMessage m).values = Utf8.encode m := by
  obtain ⟨tail, hcut, hm⟩ := exists_cut hne
  have htrim := (message_ofMessage_eq_iff hcut hm).mp h
  rw [ofMessage_cut hcut hm]
  constructor
  · rw [List.map_cons, List.head?_cons, ne_eq, Option.some.injEq]
    exact ofShortBytes_ne_zero hcut.head_pos hcut.head_le htrim
  · rw [spelled_cut hcut, htrim, ← hm]

/-- The text that elements below `2 ^ 248` spell has these elements, if the first is not zero. -/
theorem values_ofMessage_of_spelled {a : Felt} {rest : List Felt} {s : String}
    (ha : a ≠ Felt.zero) (hlt : ∀ b ∈ a :: rest, b.val < 2 ^ 248)
    (hs : Utf8.encode s = spelled (a :: rest)) : (ofMessage s).values = a :: rest := by
  obtain ⟨hfirst, hrest⟩ := List.forall_mem_cons.mp hlt
  have hflat : Utf8.encode s = Bytes.trim a.toBytes ++ (rest.map lastBytes).flatten := by
    rw [hs, spelled, List.flatMap_def]
  have hmap : (rest.map lastBytes).map ofShortBytes = rest := by
    rw [List.map_map]
    exact (List.map_congr_left fun b hb => ofShortBytes_lastBytes (hrest b hb)).trans
      (List.map_id rest)
  rw [ofMessage_cut (isCut_spelled ha hfirst) hflat, List.map_cons,
    ofShortBytes_trim_toBytes hfirst, hmap]

/-- **Which payloads come back.** Reading a payload and spelling what was read gives the payload
exactly if it is empty, or if its first element is not zero, every element is below `2 ^ 248`, and
the bytes that its elements spell are those of a text. -/
theorem ofMessage_message_iff (p : Payload) :
    ofMessage p.message = p ↔
      p.values = [] ∨
        (p.values.head? ≠ some Felt.zero ∧ (∀ a ∈ p.values, a.val < 2 ^ 248) ∧
          ∃ s : String, Utf8.encode s = spelled p.values) := by
  constructor
  · intro h
    by_cases hne : p.values = []
    · exact Or.inl hne
    have hbytes : Utf8.encode p.message ≠ [] := by
      rw [ne_eq, ← values_ofMessage_eq_nil_iff, h]
      exact hne
    have hback : (ofMessage p.message).message = p.message := by rw [h]
    obtain ⟨hzero, hspelled⟩ := spelled_ofMessage_of_eq hbytes hback
    have hlt := val_ofMessage_lt p.message
    rw [h] at hzero hspelled hlt
    exact Or.inr ⟨hzero, hlt, p.message, hspelled.symm⟩
  · rintro (hnil | ⟨hzero, hlt, s, hs⟩)
    · have hm : p.message = "" := message_eq_of_spelled (by rw [hnil]; rfl)
      have hvals : (ofMessage "").values = p.values := by rw [hnil]; rfl
      rw [hm]
      exact congrArg Payload.mk hvals
    · rw [message_eq_of_spelled hs.symm]
      obtain ⟨_ | ⟨a, rest⟩⟩ := p
      · exact congrArg Payload.mk (values_ofMessage_eq_nil_iff.mpr hs)
      · have ha : a ≠ Felt.zero := fun h => hzero (congrArg some h)
        exact congrArg Payload.mk (values_ofMessage_of_spelled ha hlt hs)

end FieldWords.Payload
