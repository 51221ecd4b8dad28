import Mathlib.Data.List.Basic
import FieldWords.Proofs.Payload.Message
import FieldWords.Proofs.Rlp

/-!
# Readers and writers on guarded operations

Some operations on bytes may not be given everything: a slice lies within its bytes, a copy has the
length of its target, a difference of lengths is not negative, a number takes at most 32 bytes and a
text at most 31, and digits come in pairs. Here each of these reports a breach of its rule, and the
readers and writers of the library are put together from them (`Guarded`). Every reader and writer
keeps all rules, whatever it is given, and comes to the result of the library: what is tested, cut or
padded before an operation is always enough for it (`no_breach`).
-/

namespace FieldWords

/-- The rules that an operation on bytes may find broken. -/
inductive Breach where
  | textTooLong
  | numberTooLong
  | negativeLength
  | outOfRange
  | lengthMismatch
  | oddDigits
  deriving DecidableEq

/-- A computation that stops at a breach. -/
abbrev Guarded := Except Breach

namespace Guarded

/-! ### Operations -/

/-- The promise that bytes are a text for one element. -/
def shortText (bs : List UInt8) : Guarded Unit :=
  if bs.length ≤ Felt.shortStringLength then pure () else throw .textTooLong

/-- The word that bytes write. -/
def bigEndian (bs : List UInt8) : Guarded Modular.Word :=
  if bs.length ≤ 32 then pure (Modular.word (Bytes.value bs)) else throw .numberTooLong

/-- A difference of lengths. -/
def minus (m n : ℕ) : Guarded ℕ := if n ≤ m then pure (m - n) else throw .negativeLength

/-- The bytes before an index. -/
def front (stop : ℕ) (bs : List UInt8) : Guarded (List UInt8) :=
  if stop ≤ bs.length then pure (bs.take stop) else throw .outOfRange

/-- The bytes from an index on. -/
def back (start : ℕ) (bs : List UInt8) : Guarded (List UInt8) :=
  if start ≤ bs.length then pure (bs.drop start) else throw .outOfRange

/-- Bytes written over others. -/
def copy (target source : List UInt8) : Guarded (List UInt8) :=
  if source.length = target.length then pure source else throw .lengthMismatch

/-- The bytes that pairs of digits spell. -/
def decodePairs (ds : List UInt8) : Guarded (Except Hex.Error (List UInt8)) :=
  if ds.length % 2 = 0 then pure (Hex.decode ds) else throw .oddDigits

section Operations

variable {bs source : List UInt8} {m n : ℕ}

theorem shortText_of_le (h : bs.length ≤ 31) : shortText bs = pure () := if_pos h

theorem bigEndian_of_le (h : bs.length ≤ 32) :
    bigEndian bs = pure (Modular.word (Bytes.value bs)) := if_pos h

theorem minus_of_le (h : n ≤ m) : minus m n = pure (m - n) := if_pos h

theorem front_of_le (h : n ≤ bs.length) : front n bs = pure (bs.take n) := if_pos h

theorem back_of_le (h : n ≤ bs.length) : back n bs = pure (bs.drop n) := if_pos h

theorem copy_of_eq (h : source.length = bs.length) : copy bs source = pure source := if_pos h

theorem decodePairs_of_even (h : bs.length % 2 = 0) : decodePairs bs = pure (Hex.decode bs) :=
  if_pos h

end Operations

/-! ### Parts of bytes -/

/-- Where the significant bytes begin; at the end, if there are none. -/
def firstSignificant (bs : List UInt8) : ℕ := (bs.findIdx? (· != 0)).getD bs.length

/-- The bytes without the zeros in front. -/
def significant (bs : List UInt8) : Guarded (List UInt8) := back (firstSignificant bs) bs

/-- At most 32 bytes at the end of 32, over zeros. -/
def rightAligned (bs : List UInt8) : Guarded (List UInt8) := do
  let zeros := List.replicate 32 0
  let index ← minus 32 bs.length
  let target ← back index zeros
  let copied ← copy target bs
  return zeros.take index ++ copied

theorem firstSignificant_eq (bs : List UInt8) : firstSignificant bs = bs.findIdx (· != 0) :=
  List.findIdx_eq_getD_findIdx?.symm

theorem significant_eq (bs : List UInt8) : significant bs = pure (Bytes.trim bs) := by
  -- also where no byte is significant, and the index is the one behind the last
  have hle : firstSignificant bs ≤ bs.length := by
    rw [firstSignificant_eq]
    exact List.findIdx_le_length
  have hdrop : bs.drop (firstSignificant bs) = Bytes.trim bs := by
    rw [firstSignificant_eq, Bytes.trim, List.dropWhile_eq_drop_findIdx_not]
    rfl
  rw [significant, back_of_le hle, hdrop]

theorem rightAligned_eq {bs : List UInt8} (h : bs.length ≤ 32) :
    rightAligned bs = pure (List.replicate (32 - bs.length) 0 ++ bs) := by
  have hindex : 32 - bs.length ≤ (List.replicate 32 (0 : UInt8)).length := by
    rw [List.length_replicate]
    omega
  have hlen : bs.length = ((List.replicate 32 (0 : UInt8)).drop (32 - bs.length)).length := by
    rw [List.length_drop, List.length_replicate]
    omega
  rw [rightAligned, minus_of_le h, pure_bind, back_of_le hindex, pure_bind, copy_of_eq hlen,
    pure_bind, List.take_replicate, Nat.min_eq_left (Nat.sub_le 32 _)]

/-! ### Elements -/

/-- The element of a text that is promised to be short. -/
def feltOfShortBytes (bs : List UInt8) : Guarded Felt := do
  shortText bs
  let w ← bigEndian bs
  return .ofNat w.toNat

/-- The element of 32 bytes, reduced. -/
def feltOfBytes (bs : Vector UInt8 32) : Guarded Felt := do
  let w ← bigEndian bs.toList
  return .ofNat w.toNat

/-- The element whose representative at most 32 bytes write. -/
def feltOfSlice (bs : List UInt8) : Guarded (Except FeltError Felt) :=
  if 32 < bs.length then return .error (.invalidLength bs.length)
  else do
    let w ← bigEndian bs
    return if h : w.toNat < prime then .ok ⟨w.toNat, h⟩ else .error .notCanonical

/-- The element of an ASCII text of at most 31 bytes. -/
def feltOfShortString (s : String) : Guarded (Except FeltError Felt) :=
  let bs := Utf8.encode s
  if !bs.all (· < 0x80) then return .error .nonAscii
  else if Felt.shortStringLength < bs.length then return .error (.shortStringTooLong bs.length)
  else do
    let a ← feltOfShortBytes bs
    return .ok a

/-- The text of an element all of whose significant bytes are printable. -/
def toShortString (a : Felt) : Guarded (Option String) := do
  let bs ← significant a.toBytes
  return if bs.all Felt.isPrintable then
    some (String.ofList (bs.map fun b => Char.ofNat b.toNat)) else none

theorem toNat_word_value {bs : List UInt8} (h : bs.length ≤ 32) :
    (Modular.word (Bytes.value bs)).toNat = Bytes.value bs :=
  Modular.toNat_word ((Bytes.value_lt_of_length_le h).trans_eq (by decide))

theorem feltOfShortBytes_eq {bs : List UInt8} (h : bs.length ≤ 31) :
    feltOfShortBytes bs = pure (Felt.ofShortBytes bs) := by
  have hle : bs.length ≤ 32 := h.trans (by decide)
  rw [feltOfShortBytes, shortText_of_le h, pure_bind, bigEndian_of_le hle, pure_bind,
    toNat_word_value hle, Felt.ofShortBytes]

/-- Not every text keeps the promise. -/
example : feltOfShortBytes (List.replicate 32 0) = .error .textTooLong := rfl

theorem feltOfBytes_eq (bs : Vector UInt8 32) :
    feltOfBytes bs = pure (Felt.ofBytes bs.toList) := by
  have hle : bs.toList.length ≤ 32 := by simp
  rw [feltOfBytes, bigEndian_of_le hle, pure_bind, toNat_word_value hle, Felt.ofBytes]

theorem feltOfSlice_eq (bs : List UInt8) : feltOfSlice bs = pure (Felt.ofSlice bs) := by
  unfold feltOfSlice Felt.ofSlice
  split
  · rfl
  · next hlen =>
    have hle : bs.length ≤ 32 := Nat.le_of_not_lt hlen
    rw [bigEndian_of_le hle, pure_bind]
    simp only [toNat_word_value hle]

theorem feltOfShortString_eq (s : String) :
    feltOfShortString s = pure (Felt.ofShortString s) := by
  simp only [feltOfShortString, Felt.ofShortString]
  split
  · rfl
  · split
    · rfl
    · next hlen => rw [feltOfShortBytes_eq (Nat.le_of_not_lt hlen), pure_bind]

theorem toShortString_eq (a : Felt) : toShortString a = pure a.toShortString := by
  rw [toShortString, significant_eq, pure_bind, Felt.toShortString]

/-! ### Numerals -/

/-- The significant bytes of a numeral. -/
def numeral (s : String) : Guarded (Except Hex.Error (List UInt8)) := do
  match ← decodePairs (Hex.padded (Utf8.encodeChars (Hex.unprefixed s.toList))) with
  | .error cause => return .error cause
  | .ok bs =>
    let bs ← significant bs
    return .ok bs

/-- The 256-bit integer of 32 bytes, one half for each limb. -/
def u256OfBytes (bs : List UInt8) : Guarded U256 := do
  let upper ← front 16 bs
  let high ← copy (List.replicate 16 0) upper
  let lower ← back 16 bs
  let low ← copy (List.replicate 16 0) lower
  return ⟨U128.ofNat (Bytes.value high), U128.ofNat (Bytes.value low)⟩

/-- The 32 bytes of a 256-bit integer, one half for each limb. -/
def u256ToBytes (x : U256) : Guarded (List UInt8) := do
  let out := List.replicate 32 0
  let upper ← front 16 out
  let high ← copy upper (Bytes.ofNat 16 x.high.toNat)
  let lower ← back 16 out
  let low ← copy lower (Bytes.ofNat 16 x.low.toNat)
  return high ++ low

/-- The 256-bit integer of at most 32 bytes. -/
def u256OfShortBytes (bs : List UInt8) : Guarded U256 := do
  let aligned ← rightAligned bs
  u256OfBytes aligned

/-- Read a numeral as an element. -/
def feltOfHex (s : String) : Guarded (Except FeltError Felt) := do
  match ← numeral s with
  | .error cause => return .error (.invalidHex cause)
  | .ok bs => feltOfSlice bs

/-- Read a numeral as a 256-bit integer. -/
def u256OfHex (s : String) : Guarded (Except U256.Error U256) := do
  match ← numeral s with
  | .error cause => return .error (.invalidHex cause)
  | .ok bs =>
    if 32 < bs.length then return .error (.invalidLength bs.length)
    else
      let x ← u256OfShortBytes bs
      return .ok x

/-- Digits are padded before they are decoded, so they are even in number. -/
theorem numeral_eq (s : String) : numeral s = pure (Hex.significant s) := by
  rw [numeral, decodePairs_of_even (Hex.length_padded _), pure_bind, Hex.significant]
  cases Hex.decode (Hex.padded (Utf8.encodeChars (Hex.unprefixed s.toList))) with
  | error cause => rfl
  | ok bs =>
    simp only [significant_eq, pure_bind]
    rfl

theorem u256OfBytes_eq {bs : List UInt8} (h : bs.length = 32) :
    u256OfBytes bs = pure (U256.ofBytes bs) := by
  have hle : 16 ≤ bs.length := by omega
  have hupper : (bs.take 16).length = (List.replicate 16 (0 : UInt8)).length := by
    rw [List.length_take, List.length_replicate]
    omega
  have hlower : (bs.drop 16).length = (List.replicate 16 (0 : UInt8)).length := by
    rw [List.length_drop, List.length_replicate]
    omega
  rw [u256OfBytes, front_of_le hle, pure_bind, copy_of_eq hupper, pure_bind, back_of_le hle,
    pure_bind, copy_of_eq hlower, pure_bind, U256.ofBytes]

theorem u256ToBytes_eq (x : U256) : u256ToBytes x = pure x.toBytes := by
  have hle : 16 ≤ (List.replicate 32 (0 : UInt8)).length := by decide
  have hupper : (Bytes.ofNat 16 x.high.toNat).length =
      ((List.replicate 32 (0 : UInt8)).take 16).length := by simp
  have hlower : (Bytes.ofNat 16 x.low.toNat).length =
      ((List.replicate 32 (0 : UInt8)).drop 16).length := by simp
  rw [u256ToBytes, front_of_le hle, pure_bind, copy_of_eq hupper, pure_bind, back_of_le hle,
    pure_bind, copy_of_eq hlower, pure_bind, U256.toBytes]

theorem u256OfShortBytes_eq {bs : List UInt8} (h : bs.length ≤ 32) :
    u256OfShortBytes bs = pure (U256.ofShortBytes bs) := by
  have hlen : (List.replicate (32 - bs.length) (0 : UInt8) ++ bs).length = 32 := by
    rw [List.length_append, List.length_replicate]
    omega
  rw [u256OfShortBytes, rightAligned_eq h, pure_bind, u256OfBytes_eq hlen, U256.ofShortBytes]

theorem feltOfHex_eq (s : String) : feltOfHex s = pure (Felt.ofHex s) := by
  rw [feltOfHex, numeral_eq, pure_bind, Felt.ofHex]
  cases Hex.significant s with
  | error cause => rfl
  | ok bs => exact feltOfSlice_eq bs

theorem u256OfHex_eq (s : String) : u256OfHex s = pure (U256.ofHex s) := by
  rw [u256OfHex, numeral_eq, pure_bind, U256.ofHex]
  cases Hex.significant s with
  | error cause => rfl
  | ok bs =>
    by_cases hlen : 32 < bs.length
    · simp only [if_pos hlen]
    · simp only [if_neg hlen, u256OfShortBytes_eq (Nat.le_of_not_lt hlen), pure_bind]

/-! ### Messages -/

/-- The elements of a part in front, if there is one, and of the chunks of 31 bytes behind it, of
which the last may be shorter. -/
def feltsOfParts (head tail : List UInt8) : Guarded (List Felt) := do
  let first ← [head].filter (!·.isEmpty) |>.mapM feltOfShortBytes
  let chunks := Bytes.groups Felt.shortStringLength ((tail.length + 30) / 31) tail
  let later ← chunks.mapM feltOfShortBytes
  return first ++ later

/-- The payload that spells a message, with the remainder of its bytes in front. -/
def payloadOfMessage (m : String) : Guarded Payload := do
  let bs := Utf8.encode m
  let head ← front (bs.length % Felt.shortStringLength) bs
  let tail ← back (bs.length % Felt.shortStringLength) bs
  let values ← feltsOfParts head tail
  return ⟨values⟩

/-- The bytes that elements spell, the first of which stands at a place among others. -/
def spelled (place : ℕ) : List Felt → Guarded (List UInt8)
  | [] => pure []
  | a :: rest => do
    let part ←
      if place = 0 then significant a.toBytes
      else do
        let start ← minus a.toBytes.length Felt.shortStringLength
        back start a.toBytes
    let others ← spelled (place + 1) rest
    return part ++ others

/-- The message of a payload. -/
def message (p : Payload) : Guarded String := do
  let bs ← spelled 0 p.values
  return Utf8.decodeLossy bs

theorem mapM_feltOfShortBytes {gs : List (List UInt8)} (h : ∀ g ∈ gs, g.length ≤ 31) :
    gs.mapM feltOfShortBytes = pure (gs.map Felt.ofShortBytes) := by
  induction gs with
  | nil => rfl
  | cons g gs ih =>
    obtain ⟨hg, hgs⟩ := List.forall_mem_cons.mp h
    rw [List.mapM_cons, feltOfShortBytes_eq hg, pure_bind, ih hgs, pure_bind, List.map_cons]

theorem feltsOfParts_eq {head tail : List UInt8} {count : ℕ} (hhead : head.length ≤ 31)
    (htail : tail.length = count * 31) :
    feltsOfParts head tail =
      pure (([head].filter (!·.isEmpty) ++ Bytes.groups 31 count tail).map Felt.ofShortBytes) := by
  -- no chunk is short, so rounding the number of chunks up adds none
  have hcount : (tail.length + 30) / 31 = count := by omega
  have hfirst : ∀ g ∈ [head].filter (!·.isEmpty), g.length ≤ 31 := by
    intro g hg
    obtain rfl := List.mem_singleton.mp (List.mem_of_mem_filter hg)
    exact hhead
  have hlater : ∀ g ∈ Bytes.groups 31 count tail, g.length ≤ 31 :=
    fun g hg => (Bytes.length_of_mem_groups htail g hg).le
  simp only [feltsOfParts, Felt.shortStringLength, hcount]
  rw [mapM_feltOfShortBytes hfirst, pure_bind, mapM_feltOfShortBytes hlater, pure_bind,
    List.map_append]

theorem messageGroups_eq (bs : List UInt8) :
    Payload.messageGroups bs = [bs.take (bs.length % 31)].filter (!·.isEmpty) ++
      Bytes.groups 31 (bs.length / 31) (bs.drop (bs.length % 31)) := by
  cases h : (bs.take (bs.length % 31)).isEmpty with
  | true => simp [Payload.messageGroups, Felt.shortStringLength, h]
  | false => simp [Payload.messageGroups, Felt.shortStringLength, h]

/-- Behind the remainder stands a number of full chunks. -/
theorem payloadOfMessage_eq (m : String) : payloadOfMessage m = pure (Payload.ofMessage m) := by
  have hle : (Utf8.encode m).length % 31 ≤ (Utf8.encode m).length := Nat.mod_le _ _
  have hhead : ((Utf8.encode m).take ((Utf8.encode m).length % 31)).length ≤ 31 := by
    rw [List.length_take]
    omega
  have htail : ((Utf8.encode m).drop ((Utf8.encode m).length % 31)).length =
      (Utf8.encode m).length / 31 * 31 := by
    rw [List.length_drop]
    omega
  simp only [payloadOfMessage, Felt.shortStringLength]
  rw [front_of_le hle, pure_bind, back_of_le hle, pure_bind, feltsOfParts_eq hhead htail, pure_bind,
    Payload.ofMessage, messageGroups_eq]

/-- An element has 32 bytes, so the last 31 of them are there. -/
theorem spelled_later (rest : List Felt) {place : ℕ} (h : place ≠ 0) :
    spelled place rest = pure (rest.flatMap Payload.lastBytes) := by
  induction rest generalizing place with
  | nil => rfl
  | cons a rest ih =>
    have hlen : a.toBytes.length = 32 := a.length_toBytes
    have hsub : Felt.shortStringLength ≤ a.toBytes.length := by rw [hlen]; decide
    have hback : a.toBytes.length - Felt.shortStringLength ≤ a.toBytes.length := Nat.sub_le _ _
    simp only [spelled, if_neg h, minus_of_le hsub, pure_bind, back_of_le hback,
      ih (Nat.succ_ne_zero place)]
    rw [hlen, List.flatMap_cons, Payload.lastBytes]

theorem spelled_eq (values : List Felt) : spelled 0 values = pure (Payload.spelled values) := by
  cases values with
  | nil => rfl
  | cons a rest =>
    simp only [spelled, if_pos, significant_eq, pure_bind, spelled_later rest (Nat.succ_ne_zero 0),
      Payload.spelled]

theorem message_eq (p : Payload) : message p = pure p.message := by
  rw [message, spelled_eq, pure_bind, Payload.message]

/-! ### Content on the wire -/

/-- What an element writes. -/
def feltContent (a : Felt) : Guarded (List UInt8) := significant a.toBytes

/-- What a 256-bit integer writes. -/
def u256Content (x : U256) : Guarded (List UInt8) := do
  let bs ← u256ToBytes x
  significant bs

/-- The element that content writes. -/
def feltOfContent (bs : List UInt8) : Guarded (Except Rlp.Error Felt) :=
  if bs.head? = some 0 then return .error .notMinimal
  else do
    match ← feltOfSlice bs with
    | .ok a => return .ok a
    | .error _ => return .error .tooLarge

/-- The 256-bit integer that content writes. -/
def u256OfContent (bs : List UInt8) : Guarded (Except Rlp.Error U256) :=
  if bs.head? = some 0 then return .error .notMinimal
  else if 32 < bs.length then return .error .tooLarge
  else do
    let x ← u256OfShortBytes bs
    return .ok x

/-- The number at the front, by a reader of content. -/
def decode {α : Type} (ofContent : List UInt8 → Guarded (Except Rlp.Error α)) (bs : List UInt8) :
    Guarded (Except Rlp.Error α) :=
  match Rlp.decodeString bs with
  | .ok content => ofContent content
  | .error e => pure (.error e)

theorem u256Content_eq (x : U256) : u256Content x = pure (Rlp.Form.toContent x) := by
  rw [u256Content, u256ToBytes_eq, pure_bind, significant_eq]
  rfl

theorem feltOfContent_eq (bs : List UInt8) :
    feltOfContent bs = pure (Rlp.Form.ofContent bs) := by
  simp only [feltOfContent, Rlp.Form.ofContent]
  split
  · rfl
  · rw [feltOfSlice_eq, pure_bind]
    cases Felt.ofSlice bs with
    | ok a => rfl
    | error e => rfl

theorem u256OfContent_eq (bs : List UInt8) :
    u256OfContent bs = pure (Rlp.Form.ofContent bs) := by
  simp only [u256OfContent, Rlp.Form.ofContent]
  split
  · rfl
  · split
    · rfl
    · next hlen => rw [u256OfShortBytes_eq (Nat.le_of_not_lt hlen), pure_bind]

theorem decode_eq {α : Type} [Rlp.Form α] {ofContent : List UInt8 → Guarded (Except Rlp.Error α)}
    (h : ∀ bs, ofContent bs = pure (Rlp.Form.ofContent bs)) (bs : List UInt8) :
    decode ofContent bs = pure (Rlp.decode bs) := by
  unfold decode Rlp.decode
  cases Rlp.decodeString bs with
  | ok content => exact h content
  | error e => rfl

/-- **No reader and no writer breaks a rule.** On operations that report every breach, all readers of
elements, integers, messages and content, and all writers that cut their bytes, come to the result of
the library, whatever text, bytes or number they are given. -/
theorem no_breach :
    (∀ bs, feltOfSlice bs = .ok (Felt.ofSlice bs)) ∧
    (∀ bs : Vector UInt8 32, feltOfBytes bs = .ok (Felt.ofBytes bs.toList)) ∧
    (∀ s, feltOfHex s = .ok (Felt.ofHex s)) ∧
    (∀ s, feltOfShortString s = .ok (Felt.ofShortString s)) ∧
    (∀ a, toShortString a = .ok a.toShortString) ∧
    (∀ s, u256OfHex s = .ok (U256.ofHex s)) ∧
    (∀ bs : Vector UInt8 32, u256OfBytes bs.toList = .ok (U256.ofBytes bs.toList)) ∧
    (∀ x, u256ToBytes x = .ok x.toBytes) ∧
    (∀ m, payloadOfMessage m = .ok (Payload.ofMessage m)) ∧
    (∀ p, message p = .ok p.message) ∧
    (∀ a, feltContent a = .ok (Rlp.Form.toContent a)) ∧
    (∀ x, u256Content x = .ok (Rlp.Form.toContent x)) ∧
    (∀ bs, decode feltOfContent bs = .ok (Rlp.decode bs)) ∧
    (∀ bs, decode u256OfContent bs = .ok (Rlp.decode bs)) :=
  ⟨feltOfSlice_eq, feltOfBytes_eq, feltOfHex_eq, feltOfShortString_eq, toShortString_eq,
    u256OfHex_eq, fun bs => u256OfBytes_eq bs.length_toList, u256ToBytes_eq, payloadOfMessage_eq,
    message_eq, fun a => significant_eq a.toBytes, u256Content_eq, decode_eq feltOfContent_eq,
    decode_eq u256OfContent_eq⟩

end Guarded

end FieldWords
