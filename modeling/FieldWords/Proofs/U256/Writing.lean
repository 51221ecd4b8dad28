import FieldWords.Proofs.Text.NormalForm
import FieldWords.Proofs.U256.Reading

/-!
# Written numerals as normal forms

The numeral of an element is the normal form of every numeral that is read as the element
(`Felt.toHex_of_ofHex`), so numerals of the same element are those with the same normal form. The
numeral of an integer has all its 64 digits; without the zeros in front it is the one of the element
with the same number (`withoutZeros_toHex_toU256`).
-/

namespace FieldWords.Felt

/-- The numeral of an element is the normal form of what it was read from. -/
theorem toHex_of_ofHex {s : String} {a : Felt} (h : ofHex s = .ok a) :
    a.toHex = Hex.normalForm s := by
  obtain ⟨bs, hbs, -, hval⟩ := ofHex_eq_ok_iff.mp h
  obtain ⟨hdigits, hnumber⟩ := Hex.forall_isDigit_of_significant hbs
  rw [toHex_eq, Hex.normalForm_eq hdigits, ← hnumber, hval]

theorem toHex_injective : Function.Injective toHex := by
  intro a b h
  have hread := ofHex_toHex a
  rw [h, ofHex_toHex] at hread
  exact (Except.ok.inj hread).symm

end FieldWords.Felt

namespace FieldWords.U256

@[simp] theorem length_toHex (x : U256) : x.toHex.length = 66 := by
  rw [toHex, Hex.wide, String.length_ofList, List.length_cons, List.length_cons,
    Hex.length_encode, length_toBytes]

/-- The numeral of an integer reads back. -/
theorem ofHex_toHex (x : U256) : ofHex x.toHex = .ok x := by
  refine ofHex_eq_ok_iff.mpr ⟨Bytes.trim x.toBytes, Hex.significant_wide x.toBytes, ?_, ?_⟩
  · exact (Bytes.length_trim_le _).trans_eq (length_toBytes x)
  · rw [Bytes.value_trim, value_toBytes]

theorem withoutZeros_toHex_toU256 (a : Felt) :
    Hex.withoutZeros (Hex.behindPrefix a.toU256.toHex) = a.toHex := by
  rw [toHex, Hex.behindPrefix_wide, Hex.withoutZeros_encode, Felt.toBytes_toU256, Felt.toHex]

/-- **Written numerals are normal forms.** The numeral of an element is read as the element. Every
numeral that is read as the element has it as its normal form; so two numerals are read as the same
element exactly if their normal forms are equal. The numeral of an integer has 66 characters and is
read as the integer; that of an element taken as an integer differs from its own in zeros alone. -/
theorem written_numerals_normal :
    (∀ a : Felt, Felt.ofHex a.toHex = .ok a) ∧
    (∀ (s : String) (a : Felt), Felt.ofHex s = .ok a → a.toHex = Hex.normalForm s) ∧
    (∀ (s t : String) (a b : Felt), Felt.ofHex s = .ok a → Felt.ofHex t = .ok b →
      (a = b ↔ Hex.normalForm s = Hex.normalForm t)) ∧
    (∀ x : U256, x.toHex.length = 66 ∧ ofHex x.toHex = .ok x) ∧
    (∀ a : Felt, Hex.withoutZeros (Hex.behindPrefix a.toU256.toHex) = a.toHex) := by
  refine ⟨Felt.ofHex_toHex, fun s a h => Felt.toHex_of_ofHex h, fun s t a b ha hb => ?_,
    fun x => ⟨length_toHex x, ofHex_toHex x⟩, withoutZeros_toHex_toU256⟩
  rw [← Felt.toHex_of_ofHex ha, ← Felt.toHex_of_ofHex hb]
  exact Felt.toHex_injective.eq_iff.symm

/-- Zeros behind the prefix and digits of either case, odd in number on one side, are the same
element. -/
theorem written_numerals_normal_either_case :
    let s := "0x000aBc"
    let t := "ABC"
    let a := Felt.ofNat 0xABC
    Felt.ofHex s = .ok a ∧ Felt.ofHex t = .ok a ∧ a.toHex = "0xabc" ∧
      Hex.normalForm s = Hex.normalForm t := by
  intro s t a
  have hs : Felt.ofHex s = .ok a := by decide +kernel
  have ht : Felt.ofHex t = .ok a := by decide +kernel
  obtain ⟨-, hnormal, hsame, -⟩ := written_numerals_normal
  have hform : Hex.normalForm s = "0xabc" := by decide +kernel
  exact ⟨hs, ht, (hnormal s a hs).trans hform, (hsame s t a a hs ht).mp rfl⟩

end FieldWords.U256
