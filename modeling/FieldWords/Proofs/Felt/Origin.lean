import FieldWords.Proofs.Chain
import FieldWords.Proofs.Felt.Words

/-!
# Where elements come from

`Origin` has all ways to come by an element, each on every input, and operators on what came out of
others. `Origin.element` takes them through the definitions of the library, and `Origin.held`
through bare words. Both end alike, by one case for each kind of origin (`Origin.held_eq`). So every
word held is a representative, and equal words are the same as congruent ones
(`Origin.held_canonical`).
-/

namespace FieldWords.Felt

/-- The ways to come by an element. Integers have any native width; an element of a message or of a
fault has its place in the payload; a text is read from its tokens, wherever in a text they stand;
the operand of an operator, and what is made an address and taken out again, have origins of their
own. Negation does not look at its second operand. -/
inductive Origin where
  | constant (c : Constant)
  | ofBool (b : Bool)
  | ofInteger {width : ℕ} (x : BitVec width)
  | ofBytes (bs : Vector UInt8 32)
  | ofSlice (bs : List UInt8)
  | ofHex (s : String)
  | ofShortString (s : String)
  | ofMessage (m : String) (i : ℕ)
  | ofFault (f : Fault) (i : ℕ)
  | ofJson (ts : List Json.Token)
  | ofRlp (bs : List UInt8)
  | ofIntegerAddress (s : Space) {width : ℕ} (x : BitVec width)
  | ofAddress (s : Space) (o : Origin)
  | operated (op : FieldOp) (left right : Origin)
  | assigned (op : FieldOp) (target operand : Origin)

namespace Origin

/-- The element that comes out, if one does. -/
def element : Origin → Option Felt
  | constant c => some c.element
  | ofBool b => some (Felt.ofBool b)
  | ofInteger x => some (Felt.ofU128 (U128.ofBitVec x))
  | ofBytes bs => some (Felt.ofBytes bs.toList)
  | ofSlice bs => (Felt.ofSlice bs).toOption
  | ofHex s => (Felt.ofHex s).toOption
  | ofShortString s => (Felt.ofShortString s).toOption
  | ofMessage m i => (Payload.ofMessage m).values[i]?
  | ofFault f i => (Payload.ofFault f).values[i]?
  | ofJson ts => (Json.readFelt ts).toOption.map Prod.fst
  | ofRlp bs => (Rlp.decode bs).toOption
  | ofIntegerAddress s x => some (Address.ofU128 s (U128.ofBitVec x)).felt
  | ofAddress s o => o.element.bind fun a => (Address.ofFelt s a).toOption.map Address.felt
  | operated op left right => do
    let a ← left.element
    let b ← right.element
    (Operators.raising op a b).outcome.toOption
  | assigned op target operand => do
    let a ← target.element
    let b ← operand.element
    return ((Assigning.assign ⟨op, some b⟩).on a).2

/-- The word that comes out, if one does. A variable keeps its word if the operator has no
result. -/
def held : Origin → Option Modular.Word
  | constant c => some (Modular.ofWords c.words)
  | ofBool b => some (Modular.ofWords (if b then Constant.one else Constant.zero).words)
  | ofInteger x => some (Modular.ofInteger x)
  | ofBytes bs => (Modular.ofBytes? bs.toList).map (· % Modular.word prime)
  | ofSlice bs => Modular.ofSlice? bs
  | ofHex s => Modular.ofHex? s
  | ofShortString s => Modular.ofShortString? s
  | ofMessage m i => Modular.ofMessage? m i
  | ofFault f i => Modular.ofMessage? f.message i
  | ofJson ts => (Json.readText ts).toOption.bind fun r => Modular.ofHex? r.1
  | ofRlp bs => Modular.ofRlp? bs
  | ofIntegerAddress _ x => some (Modular.ofInteger x)
  | ofAddress s o => o.held.filter (· < Modular.ofWords (Constant.bound s).words)
  | operated op left right => do
    let v ← left.held
    let w ← right.held
    op.onWords v w
  | assigned op target operand => do
    let v ← target.held
    let w ← operand.held
    return (op.onWords v w).getD v

end Origin

/-- Computing with words is computing with elements if it is so for any two of them. -/
theorem bind_words {f : Felt → Felt → Option Felt} {g : Modular.Word → Modular.Word →
    Option Modular.Word} (h : ∀ a b, g a.word b.word = (f a b).map word) {x y : Option Felt} :
    ((x.map word).bind fun v => (y.map word).bind fun w => g v w) =
      (x.bind fun a => y.bind fun b => f a b).map word := by
  cases x with
  | none => rfl
  | some a =>
    cases y with
    | none => rfl
    | some b => exact h a b

namespace Origin

/-- The word that an origin holds is the one of its element. -/
theorem held_eq (o : Origin) : o.held = o.element.map word := by
  induction o with
  | constant c => exact congrArg some (ofWords_words c)
  | ofBool b => cases b <;> rfl
  | ofInteger x => exact congrArg some (ofInteger_eq x)
  | ofBytes bs => exact map_mod_ofBytes? (by simp)
  | ofSlice bs => exact ofSlice?_eq bs
  | ofHex s => exact ofHex?_eq s
  | ofShortString s => exact ofShortString?_eq s
  | ofMessage m i => exact ofMessage?_eq m i
  | ofFault f i => exact ofMessage?_eq f.message i
  | ofJson ts => exact ofJson?_eq ts
  | ofRlp bs => exact ofRlp?_eq bs
  | ofIntegerAddress s x => exact congrArg some (ofInteger_eq x)
  | ofAddress s o ih =>
    rw [held, element, ih]
    exact filter_bound s o.element
  | operated op left right ihl ihr =>
    rw [held, element, ihl, ihr]
    refine bind_words fun a b => ?_
    obtain ⟨c, hc, hword⟩ := operator_eq op a b
    rw [RaisesFaults.raising_of_ok hc, hword]
    rfl
  | assigned op target operand iht iho =>
    rw [held, element, iht, iho]
    refine bind_words fun a b => ?_
    obtain ⟨c, hc, hword⟩ := operator_eq op a b
    rw [hword, Assigning.on_assign_ok (s := ⟨op, some b⟩) hc]
    rfl

theorem exists_of_held {o : Origin} {w : Modular.Word} (h : o.held = some w) :
    ∃ a : Felt, o.element = some a ∧ a.word = w := by
  rwa [held_eq, Option.map_eq_some_iff] at h

/-- An operator on what is held has a result. -/
theorem isSome_held_operated (op : FieldOp) {o p : Origin} (ho : o.held.isSome)
    (hp : p.held.isSome) : (operated op o p).held.isSome := by
  obtain ⟨v, hv⟩ := Option.isSome_iff_exists.mp ho
  obtain ⟨w, hw⟩ := Option.isSome_iff_exists.mp hp
  obtain ⟨a, -, rfl⟩ := exists_of_held hv
  obtain ⟨b, -, rfl⟩ := exists_of_held hw
  obtain ⟨c, -, hc⟩ := operator_eq op a b
  rw [held, hv, hw]
  exact Option.isSome_of_eq_some hc

/-- **Every word held is a representative.** Whatever way an element comes about, the word that is
computed for it without a proof is that of the element; so it lies below the prime, and its first
byte is at most 8. Operators on such words always have a result. Two such words are the same four
words exactly if they are congruent modulo the prime. -/
theorem held_canonical :
    (∀ o : Origin, o.held = o.element.map word) ∧
    (∀ (o : Origin) (w : Modular.Word), o.held = some w →
      w.toNat < prime ∧ ∃ b, (Bytes.ofNat 32 w.toNat).head? = some b ∧ b ≤ 8) ∧
    (∀ (op : FieldOp) (o p : Origin), o.held.isSome → p.held.isSome →
      (operated op o p).held.isSome) ∧
    ∀ (o p : Origin) (v w : Modular.Word), o.held = some v → p.held = some w →
      (Modular.toWords v = Modular.toWords w ↔ v.toNat ≡ w.toNat [MOD prime]) := by
  refine ⟨held_eq, fun o w h => ?_, fun op o p => isSome_held_operated op, fun o p v w ho hp => ?_⟩
  · obtain ⟨a, -, rfl⟩ := exists_of_held h
    rw [toNat_word]
    exact ⟨a.isLt, exists_head?_toBytes a⟩
  · obtain ⟨a, -, rfl⟩ := exists_of_held ho
    obtain ⟨b, -, rfl⟩ := exists_of_held hp
    rw [toNat_word, toNat_word]
    exact toWords_word_inj

/-- Zero less one wraps to the greatest element, whose first byte is 8; the bytes of the prime are
reduced to zero, which is another word and not congruent. -/
theorem held_canonical_wrapped_and_reduced :
    let less := operated .sub (constant .zero) (constant .one)
    let reduced := ofBytes ⟨primeBytes.toArray, by decide⟩
    let top := Modular.ofWords Constant.max.words
    less.held = some top ∧ top.toNat < prime ∧
      (∃ b, (Bytes.ofNat 32 top.toNat).head? = some b ∧ b ≤ 8) ∧
      reduced.held = some 0 ∧ (operated .mul less reduced).held.isSome ∧
      ¬ top.toNat ≡ (0 : Modular.Word).toNat [MOD prime] := by
  intro less reduced top
  have hless : less.held = some top := by decide +kernel
  have hreduced : reduced.held = some 0 := by decide +kernel
  obtain ⟨-, hbound, hclosed, hwords⟩ := held_canonical
  refine ⟨hless, (hbound less top hless).1, (hbound less top hless).2, hreduced, ?_, ?_⟩
  · exact hclosed .mul less reduced (Option.isSome_of_eq_some hless)
      (Option.isSome_of_eq_some hreduced)
  · exact mt (hwords less reduced top 0 hless hreduced).mpr (by decide +kernel)

end Origin

end FieldWords.Felt
