import Mathlib.Data.List.Induction
import Mathlib.Data.Nat.Digits.Defs
import FieldWords.Proofs.Bytes
import FieldWords.Text.Hex

/-!
# What a numeral says

A digit is a byte whose character, in lower case, stands among the sixteen digits, and its place
there is its value (`digit?_eq`). Bytes are read in pairs: an even number of digits spells bytes
with the same number (`decodeFrom_of_forall`), and otherwise the first byte that is no digit is
reported with its place (`decodeFrom_of_first`). A numeral is read from the bytes behind its prefix,
with a digit zero in front if they are odd in number; so it has significant bytes exactly if all
these are digits, and the bytes write the number of the digits (`significant_of_first`,
`significant_of_forall`).
-/

namespace FieldWords.Hex

/-! ### Digits -/

/-- The digits in the order of their values. -/
def digits : List Char := "0123456789abcdef".toList

/-- The character of a byte, in lower case. -/
def lowered (b : UInt8) : Char := (Char.ofNat b.toNat).toLower

/-- Bytes that are digits, in either case. -/
def IsDigit (b : UInt8) : Prop := lowered b ∈ digits

instance : DecidablePred IsDigit := fun b => inferInstanceAs (Decidable (lowered b ∈ digits))

/-- The value of a digit is its place among the digits. -/
def digitValue (b : UInt8) : ℕ := digits.idxOf (lowered b)

private theorem digit_table : ∀ n ∈ List.range 256,
    digitOfCode? n =
      if IsDigit (UInt8.ofNat n) then some (digitValue (UInt8.ofNat n)) else none := by
  decide +kernel

theorem digit?_eq (b : UInt8) : digit? b = if IsDigit b then some (digitValue b) else none := by
  have h := digit_table b.toNat (List.mem_range.mpr b.toNat_lt)
  rwa [UInt8.ofNat_toNat] at h

theorem digitAt_of_isDigit {b : UInt8} (h : IsDigit b) (position : ℕ) :
    digitAt position b = .ok (digitValue b) := by
  rw [digitAt, digit?_eq, if_pos h]

theorem digitAt_of_not_isDigit {b : UInt8} (h : ¬ IsDigit b) (position : ℕ) :
    digitAt position b = .error (.invalidCharacter b position) := by
  rw [digitAt, digit?_eq, if_neg h]

theorem digitValue_lt {b : UInt8} (h : IsDigit b) : digitValue b < 16 :=
  List.idxOf_lt_length_of_mem h

/-! ### The number of a string of digits -/

/-- The number that digits write in base 16, most significant digit first. -/
def number (ds : List UInt8) : ℕ := Nat.ofDigits 16 (ds.map digitValue).reverse

@[simp] theorem number_nil : number [] = 0 := rfl

@[simp] theorem number_cons (d : UInt8) (ds : List UInt8) :
    number (d :: ds) = digitValue d * 16 ^ ds.length + number ds := by
  rw [number, List.map_cons, Nat.ofDigits_reverse_cons, List.length_map, ← number]
  ring

/-! ### The first byte that is no digit -/

/-- `b` stands at index `i` of `bs`, and is the first byte there that is no digit. -/
def IsFirstNonDigit (bs : List UInt8) (b : UInt8) (i : ℕ) : Prop :=
  ∃ front rest, bs = front ++ b :: rest ∧ front.length = i ∧ (∀ d ∈ front, IsDigit d) ∧ ¬ IsDigit b

/-- Either all bytes are digits, or there is a first one that is none. -/
theorem forall_isDigit_or_exists_first (bs : List UInt8) :
    (∀ d ∈ bs, IsDigit d) ∨ ∃ b i, IsFirstNonDigit bs b i := by
  induction bs with
  | nil => exact Or.inl nofun
  | cons c bs ih =>
    by_cases hc : IsDigit c
    · obtain hall | ⟨b, i, front, rest, rfl, rfl, hfront, hb⟩ := ih
      · exact Or.inl (List.forall_mem_cons.mpr ⟨hc, hall⟩)
      · exact Or.inr ⟨b, front.length + 1, c :: front, rest, rfl, rfl,
          List.forall_mem_cons.mpr ⟨hc, hfront⟩, hb⟩
    · exact Or.inr ⟨c, 0, [], bs, rfl, rfl, nofun, hc⟩

/-! ### Reading pairs -/

/-- A pair of digits in front is one byte in front. -/
theorem decodeFrom_pair {a b : UInt8} (ha : IsDigit a) (hb : IsDigit b) (position : ℕ)
    (bs : List UInt8) :
    decodeFrom position (a :: b :: bs) =
      (decodeFrom (position + 2) bs).map
        (UInt8.ofNat (16 * digitValue a + digitValue b) :: ·) := by
  simp only [decodeFrom, digitAt_of_isDigit ha, digitAt_of_isDigit hb]
  rfl

/-- Digits in an even number spell bytes with their number. -/
theorem decodeFrom_of_forall (position : ℕ) {ds : List UInt8} (heven : ds.length % 2 = 0)
    (h : ∀ d ∈ ds, IsDigit d) :
    ∃ bs, decodeFrom position ds = .ok bs ∧ ds.length = 2 * bs.length ∧
      Bytes.value bs = number ds := by
  induction ds using List.twoStepInduction generalizing position with
  | nil => exact ⟨[], rfl, rfl, rfl⟩
  | singleton a => cases heven
  | cons_cons a b ds ih =>
    obtain ⟨ha, hb, hds⟩ : IsDigit a ∧ IsDigit b ∧ ∀ d ∈ ds, IsDigit d := by simpa using h
    simp only [List.length_cons] at heven
    obtain ⟨bs, hbs, hlen, hval⟩ := ih (position + 2) (by omega) hds
    have ha16 := digitValue_lt ha
    have hb16 := digitValue_lt hb
    refine ⟨UInt8.ofNat (16 * digitValue a + digitValue b) :: bs, ?_, ?_, ?_⟩
    · rw [decodeFrom_pair ha hb, hbs]
      rfl
    · simp only [List.length_cons]
      omega
    · have hbyte : (UInt8.ofNat (16 * digitValue a + digitValue b)).toNat =
          16 * digitValue a + digitValue b := UInt8.toNat_ofNat_of_lt' (by simp [UInt8.size]; omega)
      have hpow : 256 ^ bs.length = 16 ^ ds.length := by
        rw [hlen, Nat.pow_mul]
      rw [Bytes.value_cons, hbyte, hval, hpow, number_cons, number_cons, List.length_cons, pow_succ]
      ring

/-- The first byte that is no digit is reported, with its position. -/
theorem decodeFrom_of_first (position : ℕ) {front rest : List UInt8} {b : UInt8}
    (heven : (front ++ b :: rest).length % 2 = 0) (h : ∀ d ∈ front, IsDigit d)
    (hb : ¬ IsDigit b) :
    decodeFrom position (front ++ b :: rest) =
      .error (.invalidCharacter b (position + front.length)) := by
  induction front using List.twoStepInduction generalizing position with
  | nil =>
    -- a digit must follow `b` to make the number even, but `b` is looked at first
    obtain _ | ⟨c, rest⟩ := rest
    · cases heven
    · simp only [List.nil_append, decodeFrom, digitAt_of_not_isDigit hb]
      rfl
  | singleton a =>
    have ha : IsDigit a := h a (List.mem_singleton_self a)
    simp only [List.cons_append, List.nil_append, decodeFrom, digitAt_of_isDigit ha,
      digitAt_of_not_isDigit hb]
    rfl
  | cons_cons a c front ih =>
    obtain ⟨ha, hc, hfront⟩ : IsDigit a ∧ IsDigit c ∧ ∀ d ∈ front, IsDigit d := by simpa using h
    simp only [List.cons_append, List.length_cons] at heven
    have hrec := ih (position + 2) (by omega) hfront
    rw [List.cons_append, List.cons_append, decodeFrom_pair ha hc, hrec, List.length_cons,
      List.length_cons]
    simp only [Except.map, Nat.add_assoc, Nat.add_comm 2]

/-! ### Numerals -/

/-- The bytes of a numeral behind its prefix, if it has one. -/
def body (s : String) : List UInt8 :=
  Utf8.encodeChars ((s.toList.dropPrefix? ['0', 'x']).getD s.toList)

/-- The bytes of a numeral behind its prefix, with a digit zero in front if they are odd in
number. -/
def evenBody (s : String) : List UInt8 :=
  List.replicate ((body s).length % 2) (digitByte 0) ++ body s

theorem unprefixed_eq (cs : List Char) :
    unprefixed cs = (cs.dropPrefix? ['0', 'x']).getD cs := by
  fun_cases unprefixed cs with
  | case1 cs => simp [List.dropPrefix?]
  | case2 cs h =>
    have hnone : cs.dropPrefix? ['0', 'x'] = none := by
      rw [Option.eq_none_iff_forall_ne_some]
      intro t ht
      obtain ⟨p, rfl, hp⟩ := List.dropPrefix?_eq_some_iff.mp ht
      rw [beq_iff_eq] at hp
      subst hp
      exact h t rfl
    rw [hnone, Option.getD_none]

theorem padded_body (s : String) : padded (body s) = evenBody s := by
  rcases Nat.mod_two_eq_zero_or_one (body s).length with h | h
  · rw [padded, if_pos h, evenBody, h, List.replicate_zero, List.nil_append]
  · rw [padded, if_neg (by omega), evenBody, h]
    rfl

theorem length_evenBody (s : String) : (evenBody s).length % 2 = 0 := by
  rw [← padded_body]
  exact length_padded (body s)

/-- The digit in front is a digit. -/
theorem forall_evenBody_iff (s : String) :
    (∀ d ∈ evenBody s, IsDigit d) ↔ ∀ d ∈ body s, IsDigit d := by
  have hzero : ∀ d ∈ List.replicate ((body s).length % 2) (digitByte 0), IsDigit d := by
    intro d hd
    rw [List.eq_of_mem_replicate hd]
    decide
  rw [evenBody, List.forall_mem_append]
  exact and_iff_right hzero

/-- The digit in front adds nothing. -/
theorem number_evenBody (s : String) : number (evenBody s) = number (body s) := by
  have hzero : digitValue (digitByte 0) = 0 := by decide
  rcases Nat.mod_two_eq_zero_or_one (body s).length with h | h
  · rw [evenBody, h, List.replicate_zero, List.nil_append]
  · rw [evenBody, h, List.replicate_one, List.singleton_append, number_cons, hzero, Nat.zero_mul,
      Nat.zero_add]

theorem significant_eq (s : String) :
    significant s = (decodeFrom 0 (evenBody s)).map Bytes.trim := by
  have hbody : Utf8.encodeChars (unprefixed s.toList) = body s := by rw [unprefixed_eq, body]
  rw [significant, hbody, padded_body, decode, if_pos (length_evenBody s)]

/-- The first byte behind the prefix that is no digit is reported. -/
theorem significant_of_first {s : String} {b : UInt8} {i : ℕ}
    (h : IsFirstNonDigit (evenBody s) b i) :
    significant s = .error (.invalidCharacter b i) := by
  obtain ⟨front, rest, hs, rfl, hfront, hb⟩ := h
  have heven := length_evenBody s
  rw [significant_eq, hs]
  rw [hs] at heven
  rw [decodeFrom_of_first 0 heven hfront hb, Nat.zero_add]
  rfl

/-- Digits behind the prefix have significant bytes, which write their number. -/
theorem significant_of_forall {s : String} (h : ∀ d ∈ body s, IsDigit d) :
    ∃ bs, significant s = .ok bs ∧ Bytes.trim bs = bs ∧ Bytes.value bs = number (body s) := by
  obtain ⟨bs, hbs, -, hval⟩ :=
    decodeFrom_of_forall 0 (length_evenBody s) ((forall_evenBody_iff s).mpr h)
  refine ⟨Bytes.trim bs, ?_, Bytes.trim_trim bs, ?_⟩
  · rw [significant_eq, hbs]
    rfl
  · rw [Bytes.value_trim, hval, number_evenBody]

/-- What has significant bytes is digits behind the prefix. -/
theorem forall_isDigit_of_significant {s : String} {bs : List UInt8}
    (h : significant s = .ok bs) :
    (∀ d ∈ body s, IsDigit d) ∧ Bytes.value bs = number (body s) := by
  obtain hall | ⟨b, i, hb⟩ := forall_isDigit_or_exists_first (evenBody s)
  · have hbody := (forall_evenBody_iff s).mp hall
    obtain ⟨cs, hcs, -, hval⟩ := significant_of_forall hbody
    obtain rfl : cs = bs := Except.ok.inj (hcs.symm.trans h)
    exact ⟨hbody, hval⟩
  · rw [significant_of_first hb] at h
    cases h

/-- What is reported is the first byte that is no digit. -/
theorem significant_eq_error_iff {s : String} {b : UInt8} {i : ℕ} :
    significant s = .error (.invalidCharacter b i) ↔ IsFirstNonDigit (evenBody s) b i := by
  refine ⟨fun h => ?_, significant_of_first⟩
  obtain hall | ⟨c, j, hc⟩ := forall_isDigit_or_exists_first (evenBody s)
  · obtain ⟨bs, hbs, -⟩ := significant_of_forall ((forall_evenBody_iff s).mp hall)
    rw [hbs] at h
    cases h
  · rw [significant_of_first hc] at h
    cases h
    exact hc

end FieldWords.Hex
