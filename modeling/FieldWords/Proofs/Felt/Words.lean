import Mathlib.Algebra.Order.Ring.Nat
import Mathlib.Data.Nat.ModEq
import FieldWords.Json.Reader
import FieldWords.Operator
import FieldWords.Rlp
import FieldWords.Proofs.Payload.Message

/-!
# Elements and the words that hold them

An element carries the proof that its representative lies below the prime; the word that holds it
does not, and a word may be filled with anything. Here each way to read an element is taken with
bare words, checked and reduced no more than the reader does: bytes of a numeral are checked, 32
bytes are reduced, and a constant, an integer, a short text and a group of a message are stored as
they are. Each comes to the word of the element that is read (`Felt.ofSlice?_eq` and the lemmas
after it), and so does each operator (`Felt.operator_eq`).
-/

namespace FieldWords

/-! ### Words without a bound -/

namespace Modular

/-- Four words of 64 bits as one. -/
def ofWords (w : U256.Words) : Word := word w.toNat

/-- The four words of 64 bits in one, least significant first. -/
def toWords (w : Word) : U256.Words where
  w0 := w.setWidth 64
  w1 := (w >>> 64).setWidth 64
  w2 := (w >>> 128).setWidth 64
  w3 := (w >>> 192).setWidth 64

theorem ofWords_toWords (w : Word) : ofWords (toWords w) = w := by
  apply BitVec.eq_of_toNat_eq
  have hw : w.toNat < 2 ^ 256 := w.isLt
  simp only [ofWords, toWords, U256.Words.toNat, BitVec.toNat_setWidth, BitVec.toNat_ushiftRight,
    Nat.shiftRight_eq_div_pow]
  rw [toNat_word (by omega)]
  omega

theorem toWords_injective : Function.Injective toWords :=
  Function.LeftInverse.injective ofWords_toWords

/-- An unsigned integer, widened to 128 bits, in the two low words. -/
def ofInteger {width : ℕ} (x : BitVec width) : Word :=
  ofWords ⟨(x.setWidth 128).setWidth 64, (x.setWidth 128 >>> 64).setWidth 64, 0, 0⟩

/-- The word that bytes write, of which at most 32 have one. -/
def ofBytes? (bs : List UInt8) : Option Word :=
  if bs.length ≤ 32 then some (word (Bytes.value bs)) else none

/-- The word of at most 32 bytes, if it is below the prime. -/
def ofSlice? (bs : List UInt8) : Option Word :=
  if 32 < bs.length then none else (ofBytes? bs).filter (· < word prime)

/-- The word of a numeral's significant bytes, if it is below the prime. -/
def ofHex? (s : String) : Option Word := (Hex.significant s).toOption.bind ofSlice?

/-- The word of an ASCII text of at most 31 bytes. -/
def ofShortString? (s : String) : Option Word :=
  let bs := Utf8.encode s
  if !bs.all (· < 0x80) then none
  else if Felt.shortStringLength < bs.length then none
  else ofBytes? bs

/-- The words of a message, one for each group of its bytes. -/
def ofMessage? (m : String) (i : ℕ) : Option Word :=
  (Payload.messageGroups (Utf8.encode m))[i]?.bind ofBytes?

/-- The word of an encoded number, if its content has no leading zero and is below the prime. -/
def ofRlp? (bs : List UInt8) : Option Word :=
  (Rlp.decodeString bs).toOption.bind fun content =>
    if content.head? = some 0 then none else ofSlice? content

theorem filter_word_lt {m n : ℕ} (hm : m < 2 ^ 256) (hn : n < 2 ^ 256) :
    (some (word m)).filter (· < word n) = if m < n then some (word m) else none := by
  simp only [Option.filter_some, decide_eq_true_eq, BitVec.lt_def, toNat_word hm, toNat_word hn]

end Modular

/-- An operator on words; it has no result if a part of it does not fit. -/
def FieldOp.onWords : FieldOp → Modular.Word → Modular.Word → Option Modular.Word
  | .add, v, w => Modular.addMod v w
  | .sub, v, w => Modular.subMod v w
  | .mul, v, w => some (Modular.mulMod v w)
  | .neg, v, _ => Modular.subMod (Modular.word 0) v

namespace Felt

/-- The elements that have a name. -/
inductive Constant where
  | zero
  | one
  | max
  | bound (s : Space)

namespace Constant

def element : Constant → Felt
  | .zero => Felt.zero
  | .one => Felt.one
  | .max => Felt.max
  | .bound s => s.bound

/-- The words that spell a constant. -/
def words : Constant → U256.Words
  | .zero => ⟨0, 0, 0, 0⟩
  | .one => ⟨1, 0, 0, 0⟩
  | .max => ⟨0, 0, 0, 0x0800000000000011⟩
  | .bound .storage =>
    ⟨0xFFFFFFFFFFFFFF00, 0xFFFFFFFFFFFFFFFF, 0xFFFFFFFFFFFFFFFF, 0x07FFFFFFFFFFFFFF⟩
  | .bound .contract => ⟨0, 0, 0, 0x0800000000000000⟩

end Constant

/-! ### Words of elements -/

theorem toNat_word (a : Felt) : a.word.toNat = a.val :=
  Modular.toNat_word (a.isLt.trans (by decide))

/-- Congruent representatives have the same four words, and only these do. -/
theorem toWords_word_inj {a b : Felt} :
    Modular.toWords a.word = Modular.toWords b.word ↔ a.val ≡ b.val [MOD prime] := by
  rw [Modular.toWords_injective.eq_iff, ← BitVec.toNat_inj, toNat_word, toNat_word]
  constructor
  · intro h
    rw [h]
  · intro h
    exact h.eq_of_lt_of_lt a.isLt b.isLt

/-- The first byte of a representative is that of the prime, or less. -/
theorem exists_head?_toBytes (a : Felt) : ∃ b, a.toBytes.head? = some b ∧ b ≤ 8 := by
  refine ⟨UInt8.ofNat (a.val / 256 ^ 31), rfl, ?_⟩
  have hlt : a.val / 256 ^ 31 < 9 := Nat.div_lt_of_lt_mul (a.isLt.trans (by decide))
  rw [UInt8.le_iff_toNat_le, UInt8.toNat_ofNat', Nat.mod_eq_of_lt (hlt.trans (by decide))]
  exact Nat.le_of_lt_succ hlt

/-! ### Readers -/

theorem ofWords_words (c : Constant) : Modular.ofWords c.words = c.element.word := by
  obtain _ | _ | _ | ⟨_ | _⟩ := c <;> rfl

theorem ofInteger_eq {width : ℕ} (x : BitVec width) :
    Modular.ofInteger x = (ofU128 (U128.ofBitVec x)).word := by
  apply congrArg Modular.word
  simp only [U256.Words.toNat, BitVec.toNat_setWidth, BitVec.toNat_ushiftRight,
    Nat.shiftRight_eq_div_pow, val_ofU128, U128.toNat, U128.ofBitVec, BitVec.ofNat_eq_ofNat,
    BitVec.toNat_ofNat]
  omega

theorem ofBytes?_of_length_le {bs : List UInt8} (h : bs.length ≤ shortStringLength) :
    Modular.ofBytes? bs = some (ofShortBytes bs).word := by
  rw [Modular.ofBytes?, if_pos (h.trans (by decide)), word, val_ofShortBytes h]

theorem map_mod_ofBytes? {bs : List UInt8} (h : bs.length = 32) :
    (Modular.ofBytes? bs).map (· % Modular.word prime) = some (ofBytes bs).word := by
  have hv : Bytes.value bs < 2 ^ 256 := (Bytes.value_lt_of_length_le h.le).trans_eq (by decide)
  rw [Modular.ofBytes?, if_pos h.le, Option.map_some]
  apply congrArg some
  apply BitVec.eq_of_toNat_eq
  rw [BitVec.toNat_umod, Modular.toNat_word hv, Modular.toNat_word (by decide), toNat_word, ofBytes,
    val_ofNat]

theorem ofSlice?_eq (bs : List UInt8) :
    Modular.ofSlice? bs = (ofSlice bs).toOption.map word := by
  unfold Modular.ofSlice? ofSlice
  split
  · rfl
  · next hlen =>
    have hle : bs.length ≤ 32 := Nat.le_of_not_lt hlen
    have hv : Bytes.value bs < 2 ^ 256 := (Bytes.value_lt_of_length_le hle).trans_eq (by decide)
    rw [Modular.ofBytes?, if_pos hle, Modular.filter_word_lt hv (by decide)]
    split
    · rfl
    · rfl

theorem ofHex?_eq (s : String) : Modular.ofHex? s = (ofHex s).toOption.map word := by
  cases h : Hex.significant s with
  | error cause =>
    rw [Modular.ofHex?, ofHex, h]
    rfl
  | ok bs =>
    rw [Modular.ofHex?, ofHex, h]
    exact ofSlice?_eq bs

theorem ofShortString?_eq (s : String) :
    Modular.ofShortString? s = (ofShortString s).toOption.map word := by
  simp only [Modular.ofShortString?, ofShortString]
  split
  · rfl
  · split
    · rfl
    · next hlen => exact ofBytes?_of_length_le (Nat.le_of_not_lt hlen)

theorem ofMessage?_eq (m : String) (i : ℕ) :
    Modular.ofMessage? m i = (Payload.ofMessage m).values[i]?.map word := by
  rw [Modular.ofMessage?, Payload.ofMessage, List.getElem?_map, Option.map_map]
  cases h : (Payload.messageGroups (Utf8.encode m))[i]? with
  | none => rfl
  | some g =>
    exact ofBytes?_of_length_le (Payload.length_of_mem_messageGroups g (List.mem_of_getElem? h))

theorem ofJson?_eq (ts : List Json.Token) :
    (Json.readText ts).toOption.bind (fun r => Modular.ofHex? r.1) =
      ((Json.readFelt ts).toOption.map Prod.fst).map word := by
  cases h : Json.readText ts with
  | error e =>
    rw [Json.readFelt, h]
    rfl
  | ok r =>
    rw [Except.toOption, Option.bind_some, ofHex?_eq]
    cases hr : ofHex r.1 with
    | error cause =>
      have hread : Json.readFelt ts = .error (.felt cause) := by
        simp only [Json.readFelt, h, bind, Except.bind, hr]
      rw [hread]
      rfl
    | ok a =>
      have hread : Json.readFelt ts = .ok (a, r.2) := by
        simp only [Json.readFelt, h, bind, Except.bind, hr]
        rfl
      rw [hread]
      rfl

theorem ofRlp?_eq (bs : List UInt8) :
    Modular.ofRlp? bs = (Rlp.decode bs : Except Rlp.Error Felt).toOption.map word := by
  cases h : Rlp.decodeString bs with
  | error e =>
    rw [Modular.ofRlp?, Rlp.decode, h]
    rfl
  | ok content =>
    rw [Modular.ofRlp?, Rlp.decode, h]
    change (if content.head? = some 0 then none else Modular.ofSlice? content) = _
    simp only [Rlp.Form.ofContent]
    split
    · rfl
    · rw [ofSlice?_eq]
      cases ofSlice content with
      | error e => rfl
      | ok a => rfl

theorem filter_bound (s : Space) (o : Option Felt) :
    (o.map word).filter (· < Modular.ofWords (Constant.bound s).words) =
      (o.bind fun a => (Address.ofFelt s a).toOption.map Address.felt).map word := by
  cases o with
  | none => rfl
  | some a =>
    have ha : a.val < 2 ^ 256 := a.isLt.trans (by decide)
    have hs : s.bound.val < 2 ^ 256 := s.bound.isLt.trans (by decide)
    rw [ofWords_words, Option.map_some, Option.bind_some, Address.ofFelt, word,
      Constant.element, word, Modular.filter_word_lt ha hs]
    split
    · rfl
    · rfl

/-! ### Operators -/

/-- Operators on elements have no faults, and the words that hold the elements lead to the word of
the result. -/
theorem operator_eq (op : FieldOp) (a b : Felt) :
    ∃ c, Operators.checked op a b = .ok c ∧ op.onWords a.word b.word = some c.word := by
  cases op with
  | add =>
    refine ⟨a + b, rfl, ?_⟩
    rw [FieldOp.onWords, word, word, Modular.addMod_word a.isLt b.isLt, word, val_add]
  | sub =>
    refine ⟨a - b, rfl, ?_⟩
    rw [FieldOp.onWords, word, word, Modular.subMod_word a.isLt b.isLt, word, val_sub]
  | mul =>
    refine ⟨a * b, rfl, ?_⟩
    rw [FieldOp.onWords, word, word, Modular.mulMod_word a.isLt b.isLt, word, val_mul]
  | neg =>
    refine ⟨-a, rfl, ?_⟩
    rw [FieldOp.onWords, word, Modular.subMod_word prime_pos a.isLt, word, val_neg, Nat.zero_add]

end Felt

end FieldWords
