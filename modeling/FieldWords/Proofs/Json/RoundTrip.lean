import FieldWords.Json.Reader
import FieldWords.Json.Writer
import FieldWords.Proofs.Felt.Reading
import FieldWords.Proofs.Json.Token

/-!
# Values survive JSON

A kind of value has a writer and a reader, and the tokens that its written values should be. These
tokens are what is written (`Kind.toList_write`); they are found again, in front of anything that a
number cannot go on with (`Kind.lex_write`); and the reader takes the value from them and leaves the
rest (`Kind.reader_tokens`). All three go by induction on the kind: sequences pass on what holds of
their items.
-/

namespace FieldWords.Json

/-! ### Items of a list -/

section Items

variable {α : Type} {write : α → String} {tokens : α → List Token} {item : Reader α}

/-- The list of a sequence's items in order. -/
def listed (tokens : α → List Token) (s : Sequence α) : List Token :=
  .openBracket :: ([.comma].intercalate (s.toList.map tokens) ++ [.closeBracket])

/-- The first item stands in front of its separator. -/
private theorem intercalate_append {γ : Type} (sep : γ) (x y : List γ) (zs : List (List γ))
    (rest : List γ) :
    [sep].intercalate (x :: y :: zs) ++ rest =
      x ++ sep :: ([sep].intercalate (y :: zs) ++ rest) := by
  simp [List.intercalate_cons_cons]

/-- Written items with commas between them are the tokens of the items with commas between them. -/
theorem lex_intercalate
    (hitem : ∀ v rest, NumberEnds rest → lex ((write v).toList ++ rest) = tokens v ++ lex rest)
    (vs : List α) {rest : List Char} (hrest : NumberEnds rest) :
    lex ([','].intercalate (vs.map fun v => (write v).toList) ++ rest) =
      [.comma].intercalate (vs.map tokens) ++ lex rest := by
  induction vs with
  | nil => rfl
  | cons v vs ih =>
    cases vs with
    | nil => simpa using hitem v rest hrest
    | cons w vs =>
      have hcomma : punctuation? ',' = some .comma := rfl
      simp only [List.map_cons] at ih ⊢
      rw [intercalate_append, hitem v _ (numberEnds_punctuation hcomma _), lex_punctuation hcomma,
        ih, intercalate_append]

/-- Items and commas are written one after the other. -/
theorem flatMap_text_intercalate (tss : List (List Token)) :
    ([.comma].intercalate tss).flatMap Token.text =
      [','].intercalate (tss.map fun ts => ts.flatMap Token.text) := by
  induction tss with
  | nil => rfl
  | cons ts tss ih =>
    cases tss with
    | nil => simp
    | cons us tss =>
      simp only [List.map_cons] at ih ⊢
      rw [List.intercalate_cons_cons, List.intercalate_cons_cons, List.flatMap_append,
        List.flatMap_append, ih]
      rfl

theorem toList_writeSequence (s : Sequence α) :
    (writeSequence write s).toList =
      '[' :: ([','].intercalate (s.toList.map fun v => (write v).toList) ++ [']']) := by
  simp [writeSequence, String.toList_intercalate, Function.comp_def]

theorem toList_writeSequence_eq_text
    (hitem : ∀ v, (write v).toList = (tokens v).flatMap Token.text) (s : Sequence α) :
    (writeSequence write s).toList = (listed tokens s).flatMap Token.text := by
  rw [toList_writeSequence, listed, List.flatMap_cons, List.flatMap_append,
    flatMap_text_intercalate, List.map_map]
  simp [hitem, Token.text, Function.comp_def]

theorem lex_writeSequence
    (hitem : ∀ v rest, NumberEnds rest → lex ((write v).toList ++ rest) = tokens v ++ lex rest)
    (s : Sequence α) (rest : List Char) :
    lex ((writeSequence write s).toList ++ rest) = listed tokens s ++ lex rest := by
  have hopen : punctuation? '[' = some .openBracket := rfl
  have hclose : punctuation? ']' = some .closeBracket := rfl
  rw [toList_writeSequence, List.cons_append, List.append_assoc, List.singleton_append,
    lex_punctuation hopen, lex_intercalate hitem _ (numberEnds_punctuation hclose _),
    lex_punctuation hclose]
  simp [listed]

/-- Items are read from their tokens up to the end of the list. -/
theorem readItems_intercalate (hitem : ∀ v ts, item (tokens v ++ ts) = .ok (v, ts))
    (v : α) (vs : List α) (ts : List Token) :
    readItems item ([.comma].intercalate ((v :: vs).map tokens) ++ .closeBracket :: ts) =
      .ok (v :: vs, ts) := by
  induction vs generalizing v with
  | nil =>
    rw [readItems]
    simp [hitem]
  | cons w vs ih =>
    simp only [List.map_cons] at ih ⊢
    rw [intercalate_append, readItems, hitem]
    simp only
    rw [if_pos, ih]
    · rfl
    · simp only [List.length_append, List.length_cons]
      omega

/-- What does not look like an end is the first item. -/
theorem readSequence_of_ne {t : Token} (h : t ≠ .closeBracket) (ts : List Token) :
    readSequence item (.openBracket :: t :: ts) =
      (readItems item (t :: ts)).map fun r => (.ofList r.1, r.2) := by
  rw [readSequence]
  rintro rest ⟨⟩
  exact h rfl

/-- A sequence is read from the list of its items, none of which begins like the end. -/
theorem readSequence_listed (hitem : ∀ v ts, item (tokens v ++ ts) = .ok (v, ts))
    (hopen : ∀ v, ∃ t ts, tokens v = t :: ts ∧ t ≠ .closeBracket)
    (s : Sequence α) (ts : List Token) :
    readSequence item (listed tokens s ++ ts) = .ok (s, ts) := by
  obtain ⟨vs, rfl⟩ : ∃ vs, s = .ofList vs := ⟨s.toList, s.ofList_toList.symm⟩
  have hlist : listed tokens (.ofList vs) ++ ts =
      .openBracket :: ([.comma].intercalate (vs.map tokens) ++ .closeBracket :: ts) := by
    simp [listed]
  rw [hlist]
  cases vs with
  | nil => rfl
  | cons v vs =>
    obtain ⟨t, us, htokens, hne⟩ := hopen v
    have hitems := readItems_intercalate hitem v vs ts
    rw [List.map_cons, htokens, List.intercalate_cons_cons_left, List.cons_append] at hitems ⊢
    rw [readSequence_of_ne hne, hitems]
    rfl

end Items

/-! ### Single values -/

/-- The string with an element's digits in base 16, without leading zeros, behind the prefix. -/
def numeral (a : Felt) : Token :=
  .string (some (String.ofList ('0' :: 'x' :: Nat.toDigits 16 a.val)))

private theorem escape_table : ∀ d ∈ List.range 16,
    escape (Nat.digitChar d) = [Nat.digitChar d] := by
  decide

theorem flatMap_escape_of_forall {cs : List Char} (h : ∀ c ∈ cs, escape c = [c]) :
    cs.flatMap escape = cs := by
  induction cs with
  | nil => rfl
  | cons c cs ih =>
    obtain ⟨hc, hcs⟩ := List.forall_mem_cons.mp h
    rw [List.flatMap_cons, hc, ih hcs, List.singleton_append]

/-- Nothing is escaped in a numeral. -/
theorem writeFelt_eq (a : Felt) : writeFelt a = quote a.toHex := by
  have hplain : ∀ c ∈ a.toHex.toList, escape c = [c] := by
    intro c hc
    rcases Hex.mem_toList_short hc with rfl | ⟨d, hd, rfl⟩
    · decide
    · exact escape_table d (List.mem_range.mpr hd)
  rw [← String.toList_inj, quote, flatMap_escape_of_forall hplain]
  simp [writeFelt]

theorem toList_writeFelt (a : Felt) : (writeFelt a).toList = (numeral a).text := by
  rw [writeFelt_eq, Felt.toHex_eq, numeral, Token.text]

theorem lex_writeFelt (a : Felt) (rest : List Char) :
    lex ((writeFelt a).toList ++ rest) = numeral a :: lex rest := by
  rw [writeFelt_eq, lex_quote, Felt.toHex_eq, numeral]

theorem readFelt_numeral (a : Felt) (ts : List Token) :
    readFelt (numeral a :: ts) = .ok (a, ts) := by
  have h := Felt.ofHex_toHex a
  rw [Felt.toHex_eq] at h
  simp only [readFelt, numeral, readText, bind, Except.bind, h]
  rfl

theorem readAddress_numeral {s : Space} (a : Address s) (ts : List Token) :
    readAddress s (numeral a.felt :: ts) = .ok (a, ts) := by
  simp only [readAddress, readFelt_numeral, bind, Except.bind, Address.ofFelt, dif_pos a.inRange]
  rfl

theorem toList_writeU128 (a : U128) : (writeU128 a).toList = Nat.toDigits 10 a.toNat := by
  rw [writeU128, U128.toDecimal, Decimal.toList_write]

theorem lex_writeU128 (a : U128) {rest : List Char} (h : NumberEnds rest) :
    lex ((writeU128 a).toList ++ rest) = .natural a.toNat :: lex rest := by
  rw [toList_writeU128, lex_toDigits a.toNat h]

theorem readU128_natural (a : U128) (ts : List Token) :
    readU128 (.natural a.toNat :: ts) = .ok (a, ts) := by
  rw [readU128, if_pos a.toNat_lt, U128.ofNat_toNat]

/-- The object with both limbs under their names. -/
def limbs (a : U256) : List Token :=
  [.openBrace, .string (some "high"), .colon, .natural a.high.toNat, .comma,
    .string (some "low"), .colon, .natural a.low.toNat, .closeBrace]

theorem toList_writeU256 (a : U256) :
    (writeU256 a).toList = '{' :: ((quote "high").toList ++ ':' :: ((writeU128 a.high).toList ++
      ',' :: ((quote "low").toList ++ ':' :: ((writeU128 a.low).toList ++ ['}'])))) := by
  have hhigh : (quote "high").toList = "\"high\"".toList := by decide
  have hlow : (quote "low").toList = "\"low\"".toList := by decide
  simp [writeU256, hhigh, hlow]

theorem toList_writeU256_eq_text (a : U256) :
    (writeU256 a).toList = (limbs a).flatMap Token.text := by
  simp [toList_writeU256, toList_writeU128, limbs, Token.text]

theorem lex_writeU256 (a : U256) (rest : List Char) :
    lex ((writeU256 a).toList ++ rest) = limbs a ++ lex rest := by
  have hopen : punctuation? '{' = some .openBrace := rfl
  have hcolon : punctuation? ':' = some .colon := rfl
  have hcomma : punctuation? ',' = some .comma := rfl
  have hclose : punctuation? '}' = some .closeBrace := rfl
  simp only [toList_writeU256, List.cons_append, List.append_assoc, List.nil_append]
  rw [lex_punctuation hopen, lex_quote, lex_punctuation hcolon,
    lex_writeU128 a.high (numberEnds_punctuation hcomma _), lex_punctuation hcomma, lex_quote,
    lex_punctuation hcolon, lex_writeU128 a.low (numberEnds_punctuation hclose _),
    lex_punctuation hclose]
  rfl

/-- Both limbs are read, each under its name. -/
theorem readFields_limbs (a : U256) (ts : List Token) :
    readFields ⟨none, none⟩ ((limbs a).tail ++ ts) = .ok (⟨some a.high, some a.low⟩, ts) := by
  have hhigh : ∀ rest, readField ⟨none, none⟩ "high" (.natural a.high.toNat :: rest) =
      .ok (⟨some a.high, none⟩, rest) := by
    intro rest
    rw [readField, if_pos rfl, readU128_natural]
    rfl
  have hlow : ∀ rest, readField ⟨some a.high, none⟩ "low" (.natural a.low.toNat :: rest) =
      .ok (⟨some a.high, some a.low⟩, rest) := by
    intro rest
    rw [readField, if_neg (by decide), if_pos rfl, readU128_natural]
    rfl
  rw [limbs, List.tail_cons]
  simp only [List.cons_append, List.nil_append]
  rw [readFields, hhigh]
  simp only [List.length_cons]
  rw [if_pos (by omega), readFields, hlow]

theorem readU256_limbs (a : U256) (ts : List Token) : readU256 (limbs a ++ ts) = .ok (a, ts) := by
  have h := readFields_limbs a ts
  rw [limbs, List.tail_cons] at h
  rw [limbs, List.cons_append, readU256, h]
  rfl

/-! ### Kinds of values -/

/-- What can be written: an element, an address, an integer, or a sequence of such. -/
inductive Kind where
  | felt
  | address (s : Space)
  | u128
  | u256
  | sequence (item : Kind)

namespace Kind

/-- The values of a kind. -/
def Value : Kind → Type
  | .felt => Felt
  | .address s => Address s
  | .u128 => U128
  | .u256 => U256
  | .sequence item => Sequence item.Value

/-- A value as text. -/
def write : (k : Kind) → k.Value → String
  | .felt => writeFelt
  | .address _ => writeAddress
  | .u128 => writeU128
  | .u256 => writeU256
  | .sequence item => writeSequence item.write

/-- The reader of the values of a kind. -/
def reader : (k : Kind) → Reader k.Value
  | .felt => readFelt
  | .address s => readAddress s
  | .u128 => readU128
  | .u256 => readU256
  | .sequence item => readSequence item.reader

/-- The tokens that a value should be written with: a numeral, a number, an object with both limbs,
or the list of the items in order. -/
def tokens : (k : Kind) → k.Value → List Token
  | .felt => fun (a : Felt) => [numeral a]
  | .address s => fun (a : Address s) => [numeral a.felt]
  | .u128 => fun (a : U128) => [.natural a.toNat]
  | .u256 => limbs
  | .sequence item => listed item.tokens

/-- No value begins like the end of a list. -/
theorem exists_tokens_eq_cons (k : Kind) (v : k.Value) :
    ∃ t ts, k.tokens v = t :: ts ∧ t ≠ .closeBracket := by
  cases k with
  | felt => exact ⟨_, _, rfl, by simp [numeral]⟩
  | address s => exact ⟨_, _, rfl, by simp [numeral]⟩
  | u128 => exact ⟨_, _, rfl, by simp⟩
  | u256 => exact ⟨_, _, rfl, by simp⟩
  | sequence item => exact ⟨_, _, rfl, by simp⟩

/-- A value is written as its tokens, with nothing between them. -/
theorem toList_write (k : Kind) (v : k.Value) :
    (k.write v).toList = (k.tokens v).flatMap Token.text := by
  induction k with
  | felt => exact (toList_writeFelt v).trans (List.append_nil _).symm
  | address s => exact (toList_writeFelt (Address.felt v)).trans (List.append_nil _).symm
  | u128 => exact (toList_writeU128 v).trans (List.append_nil _).symm
  | u256 => exact toList_writeU256_eq_text v
  | sequence item ih => exact toList_writeSequence_eq_text ih v

/-- A written value has its tokens, in front of anything that does not continue a number. -/
theorem lex_write (k : Kind) (v : k.Value) {rest : List Char} (h : NumberEnds rest) :
    lex ((k.write v).toList ++ rest) = k.tokens v ++ lex rest := by
  induction k generalizing rest with
  | felt => exact lex_writeFelt v rest
  | address s => exact lex_writeFelt (Address.felt v) rest
  | u128 => exact lex_writeU128 v h
  | u256 => exact lex_writeU256 v rest
  | sequence item ih => exact lex_writeSequence (fun w _ hrest => ih w hrest) v rest

/-- A value is read from its tokens, whatever follows them. -/
theorem reader_tokens (k : Kind) (v : k.Value) (ts : List Token) :
    k.reader (k.tokens v ++ ts) = .ok (v, ts) := by
  induction k generalizing ts with
  | felt => exact readFelt_numeral v ts
  | address s => exact readAddress_numeral v ts
  | u128 => exact readU128_natural v ts
  | u256 => exact readU256_limbs v ts
  | sequence item ih => exact readSequence_listed ih item.exists_tokens_eq_cons v ts

/-- **Values survive JSON.** A value of any kind, sequences of any length and depth included, is
written as the tokens that it should have, with nothing between them; these are the tokens that are
read, and they give the value back. -/
theorem written_and_read_back (k : Kind) (v : k.Value) :
    (k.write v).toList = (k.tokens v).flatMap Token.text ∧
    lex (k.write v).toList = k.tokens v ∧
    k.reader.read (k.write v) = .ok v := by
  have hlex : lex (k.write v).toList = k.tokens v := by
    have h := k.lex_write v numberEnds_nil
    rwa [List.append_nil, lex, List.append_nil] at h
  have hread := k.reader_tokens v []
  rw [List.append_nil] at hread
  refine ⟨k.toList_write v, hlex, ?_⟩
  rw [Reader.read, hlex, hread]

end Kind

end FieldWords.Json
