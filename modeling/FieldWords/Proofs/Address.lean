import FieldWords.Proofs.Felt.Origin
import FieldWords.Proofs.Felt.Reading
import FieldWords.Proofs.Json.Token

/-!
# Where addresses come from

What the check of an element against the bound answers is said by one iff for each answer
(`ofFelt_eq_ok_iff`, `ofFelt_eq_outOfRange_iff`), and so is what a numeral is read as
(`ofHex_eq_ok_iff`, `ofHex_eq_outOfRange_iff`, `ofHex_eq_invalidFelt_iff`). A JSON text is read as
an address if it is a string, by the numeral in it (`Json.read_readAddress_iff`). `Origin` has all
ways to come by an address, and each of them leads to the same word if bare words are compared with
the words of the bound (`Origin.held_eq`). So this word lies below the bound
(`Origin.toNat_lt_of_held`).
-/

namespace FieldWords

namespace Address

variable {s : Space}

/-! ### Checked elements -/

/-- An address is that of its element, and of no other. -/
theorem ofFelt_eq_ok_iff {f : Felt} {a : Address s} : ofFelt s f = .ok a ↔ a.felt = f := by
  constructor
  · intro h
    unfold ofFelt at h
    split at h
    · cases h
      rfl
    · cases h
  · rintro rfl
    exact dif_pos a.inRange

theorem ofFelt_eq_outOfRange_iff {f g : Felt} :
    ofFelt s f = .error (.outOfRange g) ↔ f = g ∧ s.bound.val ≤ f.val := by
  unfold ofFelt
  split
  · next hlt => exact iff_of_false (by simp) fun h => Nat.not_lt_of_le h.2 hlt
  · next hge => simpa using fun _ => Nat.le_of_not_lt hge

/-- The check of an element never reports an invalid one. -/
theorem ofFelt_ne_invalidFelt (f : Felt) (cause : FeltError) :
    ofFelt s f ≠ .error (.invalidFelt cause) := by
  unfold ofFelt
  split
  · simp
  · simp

/-! ### Numerals -/

theorem ofHex_of_ok {text : String} {f : Felt} (h : Felt.ofHex text = .ok f) :
    ofHex s text = ofFelt s f := by
  rw [ofHex, h]

theorem ofHex_of_error {text : String} {cause : FeltError} (h : Felt.ofHex text = .error cause) :
    ofHex s text = .error (.invalidFelt cause) := by
  rw [ofHex, h]

theorem ofHex_eq_ok_iff {text : String} {a : Address s} :
    ofHex s text = .ok a ↔ Felt.ofHex text = .ok a.felt := by
  cases h : Felt.ofHex text with
  | error cause => simp [ofHex_of_error h]
  | ok f =>
    rw [ofHex_of_ok h, ofFelt_eq_ok_iff, Except.ok.injEq, eq_comm]

theorem ofHex_eq_outOfRange_iff {text : String} {f : Felt} :
    ofHex s text = .error (.outOfRange f) ↔ Felt.ofHex text = .ok f ∧ s.bound.val ≤ f.val := by
  cases h : Felt.ofHex text with
  | error cause => simp [ofHex_of_error h]
  | ok g =>
    rw [ofHex_of_ok h, ofFelt_eq_outOfRange_iff, Except.ok.injEq]
    constructor
    · rintro ⟨rfl, hle⟩
      exact ⟨rfl, hle⟩
    · rintro ⟨rfl, hle⟩
      exact ⟨rfl, hle⟩

theorem ofHex_eq_invalidFelt_iff {text : String} {cause : FeltError} :
    ofHex s text = .error (.invalidFelt cause) ↔ Felt.ofHex text = .error cause := by
  cases h : Felt.ofHex text with
  | error e => simp [ofHex_of_error h]
  | ok f =>
    rw [ofHex_of_ok h]
    exact iff_of_false (ofFelt_ne_invalidFelt f cause) (by simp)

/-- A numeral has an address exactly if it is that of an element in range. -/
theorem exists_ofHex_iff {text : String} {f : Felt} :
    (∃ a, ofHex s text = .ok a ∧ a.felt = f) ↔ Felt.ofHex text = .ok f ∧ f.val < s.bound.val := by
  simp only [ofHex_eq_ok_iff]
  constructor
  · rintro ⟨a, ha, rfl⟩
    exact ⟨ha, a.inRange⟩
  · rintro ⟨hf, hlt⟩
    exact ⟨⟨f, hlt⟩, hf, rfl⟩

end Address

/-! ### JSON strings -/

namespace Json

private theorem exists_ok_of_bind {ε α β : Type} {x : Except ε α} {f : α → Except ε β} {b : β}
    (h : x.bind f = .ok b) : ∃ a, x = .ok a ∧ f a = .ok b := by
  cases x with
  | error e => cases h
  | ok a => exact ⟨a, rfl, h⟩

theorem readText_eq_ok_iff {ts rest : List Token} {t : String} :
    readText ts = .ok (t, rest) ↔ ts = .string (some t) :: rest := by
  constructor
  · intro h
    unfold readText at h
    split at h
    · cases h
      rfl
    · cases h
  · rintro rfl
    rfl

theorem readFelt_eq_ok_iff {ts rest : List Token} {f : Felt} :
    readFelt ts = .ok (f, rest) ↔
      ∃ t, ts = .string (some t) :: rest ∧ Felt.ofHex t = .ok f := by
  constructor
  · intro h
    obtain ⟨⟨t, us⟩, ht, hf⟩ := exists_ok_of_bind h
    obtain rfl := readText_eq_ok_iff.mp ht
    dsimp only at hf
    split at hf
    · next g hg =>
      cases hf
      exact ⟨t, rfl, hg⟩
    · cases hf
  · rintro ⟨t, rfl, hf⟩
    simp only [readFelt, readText, bind, Except.bind, hf]
    rfl

theorem readAddress_eq_ok_iff {s : Space} {ts rest : List Token} {a : Address s} :
    readAddress s ts = .ok (a, rest) ↔
      ∃ t, ts = .string (some t) :: rest ∧ Address.ofHex s t = .ok a := by
  constructor
  · intro h
    obtain ⟨⟨f, us⟩, hf, ha⟩ := exists_ok_of_bind h
    dsimp only at ha
    split at ha
    · next b hb =>
      cases ha
      obtain ⟨t, ht, hft⟩ := readFelt_eq_ok_iff.mp hf
      exact ⟨t, ht, (Address.ofHex_of_ok hft).trans hb⟩
    · cases ha
  · rintro ⟨t, ht, ha⟩
    have hf := readFelt_eq_ok_iff.mpr ⟨t, ht, Address.ofHex_eq_ok_iff.mp ha⟩
    simp only [readAddress, hf, bind, Except.bind, Address.ofFelt_eq_ok_iff.mpr rfl]
    rfl

theorem Reader.read_eq_ok_iff {α : Type} {reader : Reader α} {text : String} {a : α} :
    reader.read text = .ok a ↔ reader (lex text.toList) = .ok (a, []) := by
  unfold Reader.read
  split
  · next b h => simp [h]
  · next r hr h =>
    refine iff_of_false (by simp) fun ha => ?_
    rw [ha] at h
    cases h
    exact hr _ rfl
  · next e h => simp [h]

/-- A JSON string of a text is read as an address exactly if the text is a numeral of it. -/
theorem read_readAddress_iff {s : Space} {json t : String} (h : string? json = some t)
    (a : Address s) : (readAddress s).read json = .ok a ↔ Address.ofHex s t = .ok a := by
  rw [Reader.read_eq_ok_iff, readAddress_eq_ok_iff, string?_eq_some_iff.mp h]
  simp

end Json

/-! ### Origins -/

namespace Address

/-- The ways to come by an address. An element that is checked has an origin of its own, and a text
is read from its tokens, wherever in a text they stand. The default and integers are not checked. A
numeral on its own is a way to the address of a contract; what is said of it holds in both spaces. -/
inductive Origin where
  | default
  | ofElement (o : Felt.Origin)
  | ofInteger (x : U128)
  | ofHex (text : String)
  | parse (text : String)
  | ofJson (ts : List Json.Token)

/-- A word in the range of a space, by the words that spell the bound. -/
def inSpace (s : Space) (o : Option Modular.Word) : Option Modular.Word :=
  o.filter (· < Modular.ofWords (Felt.Constant.bound s).words)

namespace Origin

/-- The address of a space that comes out, if one does. -/
def address (s : Space) : Origin → Option (Address s)
  | default => some Inhabited.default
  | ofElement o => o.element.bind fun f => (Address.ofFelt s f).toOption
  | ofInteger x => some (Address.ofU128 s x)
  | ofHex text => (Address.ofHex s text).toOption
  | parse text => (Address.parse s text).toOption
  | ofJson ts => (Json.readAddress s ts).toOption.map Prod.fst

/-- The word that comes out, if one does. -/
def held (s : Space) : Origin → Option Modular.Word
  | default => some (Modular.ofWords Felt.Constant.zero.words)
  | ofElement o => inSpace s o.held
  | ofInteger x => some (Modular.ofInteger x.bits)
  | ofHex text | parse text => inSpace s (Modular.ofHex? text)
  | ofJson ts => (Json.readText ts).toOption.bind fun r => inSpace s (Modular.ofHex? r.1)

end Origin

variable {s : Space}

theorem inSpace_map_word (o : Option Felt) :
    inSpace s (o.map Felt.word) =
      (o.bind fun f => (ofFelt s f).toOption).map fun a => a.felt.word := by
  rw [inSpace, Felt.filter_bound]
  cases o with
  | none => rfl
  | some f =>
    rw [Option.bind_some, Option.bind_some, Option.map_map]
    rfl

/-- A numeral is checked as a word. -/
theorem inSpace_ofHex? (text : String) :
    inSpace s (Modular.ofHex? text) = (ofHex s text).toOption.map fun a => a.felt.word := by
  rw [Felt.ofHex?_eq, inSpace_map_word]
  cases h : Felt.ofHex text with
  | error cause =>
    rw [ofHex_of_error h]
    rfl
  | ok f =>
    rw [ofHex_of_ok h]
    rfl

private theorem toOption_eq_some_iff {ε α : Type} {x : Except ε α} {a : α} :
    x.toOption = some a ↔ x = .ok a := by
  cases x with
  | error e => simp [Except.toOption]
  | ok b => simp [Except.toOption]

theorem toOption_readAddress (ts : List Json.Token) :
    (Json.readAddress s ts).toOption.map Prod.fst =
      (Json.readText ts).toOption.bind fun r => (ofHex s r.1).toOption := by
  apply Option.ext
  intro a
  simp only [Option.map_eq_some_iff, Option.bind_eq_some_iff, toOption_eq_some_iff,
    Json.readAddress_eq_ok_iff, Json.readText_eq_ok_iff, Prod.exists]
  constructor
  · rintro ⟨b, rest, ⟨t, hts, hb⟩, rfl⟩
    exact ⟨t, rest, hts, hb⟩
  · rintro ⟨t, rest, hts, ha⟩
    exact ⟨a, rest, ⟨t, hts, ha⟩, rfl⟩

/-- The word that an origin holds is that of its address. -/
theorem Origin.held_eq (o : Origin) : o.held s = (o.address s).map fun a => a.felt.word := by
  cases o with
  | default => rfl
  | ofElement o =>
    rw [held, address, Felt.Origin.held_eq, inSpace_map_word]
  | ofInteger x =>
    rw [held, address, Felt.ofInteger_eq, U128.ofBitVec, BitVec.setWidth_eq]
    rfl
  | ofHex text => exact inSpace_ofHex? text
  | parse text => exact inSpace_ofHex? text
  | ofJson ts =>
    rw [held, address, toOption_readAddress, Option.map_bind]
    exact congrArg _ (funext fun r => inSpace_ofHex? r.1)

theorem Origin.toNat_lt_of_held {o : Origin} {w : Modular.Word} (h : o.held s = some w) :
    w.toNat < s.bound.val := by
  rw [held_eq, Option.map_eq_some_iff] at h
  obtain ⟨a, -, rfl⟩ := h
  rw [Felt.toNat_word]
  exact a.inRange

/-- **Addresses stay in range, and all ways to read one agree.** Whatever way an address comes
about, the word that is computed for it without a proof is that of the address, below
`2 ^ 251 - 256` in storage and below `2 ^ 251` for contracts, and the element of an address is
checked to be that address. A text is read as a contract address alike as a numeral, parsed, and
from any JSON string of it, of which there is one: its fault as a numeral is passed on, an element
from `2 ^ 251` on is reported with its numeral, and any other element is that of the address. From a
JSON string of it a text is read as a storage address exactly if its element is below
`2 ^ 251 - 256`, and then the contract address has the same element. -/
theorem origins_in_range_and_readers_agree :
    (∀ (s : Space) (o : Origin), o.held s = (o.address s).map fun a => a.felt.word) ∧
    (∀ (o : Origin) (w : Modular.Word), o.held .storage = some w → w.toNat < 2 ^ 251 - 256) ∧
    (∀ (o : Origin) (w : Modular.Word), o.held .contract = some w → w.toNat < 2 ^ 251) ∧
    (∀ (s : Space) (a : Address s), ofFelt s a.felt = .ok a) ∧
    (∀ t : String, Json.string? (Json.quote t) = some t) ∧
    (∀ t : String, parse .contract t = ofHex .contract t) ∧
    (∀ (t json : String), Json.string? json = some t → ∀ a : ContractAddress,
      (Json.readAddress .contract).read json = .ok a ↔ ofHex .contract t = .ok a) ∧
    (∀ (t : String) (cause : FeltError),
      ofHex .contract t = .error (.invalidFelt cause) ↔ Felt.ofHex t = .error cause) ∧
    (∀ (t : String) (f : Felt),
      ofHex .contract t = .error (.outOfRange f) ↔ Felt.ofHex t = .ok f ∧ 2 ^ 251 ≤ f.val) ∧
    (∀ f : Felt, (AddressError.outOfRange f).message .contract =
      "contract address out of range: " ++
        String.ofList ('0' :: 'x' :: Nat.toDigits 16 f.val)) ∧
    (∀ (t : String) (f : Felt),
      (∃ a, ofHex .contract t = .ok a ∧ a.felt = f) ↔ Felt.ofHex t = .ok f ∧ f.val < 2 ^ 251) ∧
    ∀ (t json : String), Json.string? json = some t → ∀ f : Felt,
      ((∃ a, (Json.readAddress .storage).read json = .ok a ∧ a.felt = f) ↔
        Felt.ofHex t = .ok f ∧ f.val < 2 ^ 251 - 256) ∧
      ((∃ a, (Json.readAddress .storage).read json = .ok a ∧ a.felt = f) →
        ∃ b, ofHex .contract t = .ok b ∧ b.felt = f) := by
  refine ⟨fun s o => o.held_eq, fun o w => Origin.toNat_lt_of_held,
    fun o w => Origin.toNat_lt_of_held, fun s a => ofFelt_eq_ok_iff.mpr rfl, Json.string?_quote,
    fun t => rfl, fun t json hjson => Json.read_readAddress_iff hjson,
    fun t cause => ofHex_eq_invalidFelt_iff, fun t f => ofHex_eq_outOfRange_iff, fun f => ?_,
    fun t f => exists_ofHex_iff, fun t json hjson f => ⟨?_, ?_⟩⟩
  · rw [AddressError.message, Felt.toHex_eq]
    rfl
  · simp only [Json.read_readAddress_iff hjson]
    exact exists_ofHex_iff
  · simp only [Json.read_readAddress_iff hjson, exists_ofHex_iff]
    rintro ⟨hf, hlt⟩
    exact ⟨hf, hlt.trans (by decide)⟩

/-- The last storage address, also with its first digit escaped; the bound of storage, which is a
contract address; and the bound for contracts. -/
theorem origins_in_range_and_readers_agree_around_bounds :
    let last := "0x7fffffffffffffffffffffffffffffffffffffffffffffffffffffffffffeff"
    let beyond := "0x800000000000000000000000000000000000000000000000000000000000000"
    let json := " \"\\u0030x7fffffffffffffffffffffffffffffffffffffffffffffffffffffffffffeff\""
    Json.string? json = some last ∧
      (∃ w, (Origin.ofHex last).held .storage = some w ∧ w.toNat = 2 ^ 251 - 257 ∧
        w.toNat < 2 ^ 251 - 256) ∧
      (∃ a b, (Json.readAddress .storage).read json = .ok a ∧
        (Json.readAddress .contract).read json = .ok b ∧ a.felt = b.felt) ∧
      (∃ w, (Origin.ofElement (.constant (.bound .storage))).held .contract = some w ∧
        w.toNat < 2 ^ 251) ∧
      ofHex .contract beyond = .error (.outOfRange Space.contract.bound) := by
  intro last beyond json
  have hjson : Json.string? json = some last := by decide +kernel
  have hlast : Felt.ofHex last = .ok ⟨2 ^ 251 - 257, by decide⟩ := by decide +kernel
  have hbound : Felt.ofHex beyond = .ok Space.contract.bound := by decide +kernel
  obtain ⟨-, hstorage, hcontract, -, -, -, hread, -, hrange, -, -, hjsons⟩ :=
    origins_in_range_and_readers_agree
  obtain ⟨a, ha, hfelt⟩ := (hjsons last json hjson _).1.mpr ⟨hlast, by decide⟩
  obtain ⟨b, hb, hfelt'⟩ := (hjsons last json hjson _).2 ⟨a, ha, hfelt⟩
  have hword : (Origin.ofHex last).held .storage = some (Modular.word (2 ^ 251 - 257)) := by
    decide +kernel
  have hvalue : (Modular.word (2 ^ 251 - 257)).toNat = 2 ^ 251 - 257 := by decide +kernel
  have hconstant : (Origin.ofElement (.constant (.bound .storage))).held .contract =
      some (Modular.ofWords (Felt.Constant.bound .storage).words) := by decide +kernel
  refine ⟨hjson, ⟨_, hword, hvalue, hstorage _ _ hword⟩,
    ⟨a, b, ha, (hread last json hjson b).mpr hb, ?_⟩, ⟨_, hconstant, hcontract _ _ hconstant⟩, ?_⟩
  · rw [hfelt, hfelt']
  · exact (hrange _ _).mpr ⟨hbound, le_rfl⟩

end Address

end FieldWords
