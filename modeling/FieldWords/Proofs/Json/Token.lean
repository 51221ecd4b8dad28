import Mathlib.Algebra.Order.Ring.Nat
import FieldWords.Json.Token

/-!
# Tokens of written texts

Whatever follows, the tokens of a text begin with what stands in front: a mark of punctuation is a
token of its own (`lex_punctuation`), a quoted text is a string with that text (`lex_quote`), and a
decimal numeral is its number, unless what follows continues it (`lex_toDigits`). So every text is
that of some string (`string?_quote`).
-/

namespace FieldWords.Json

/-! ### One token -/

theorem isBlank_of_punctuation? {c : Char} {t : Token} (h : punctuation? c = some t) :
    isBlank c = false := by
  unfold punctuation? at h
  split at h
  all_goals first | rfl | cases h

theorem lex_punctuation {c : Char} {t : Token} (h : punctuation? c = some t) (cs : List Char) :
    lex (c :: cs) = t :: lex cs := by
  rw [lex, isBlank_of_punctuation? h, if_neg Bool.false_ne_true, h]

/-- A token of several characters, which is not longer than the text. -/
theorem lex_scan {c : Char} {cs rest : List Char} {t : Token} (hblank : isBlank c = false)
    (hmark : punctuation? c = none) (hscan : scan c cs = some (t, rest))
    (hlen : rest.length ≤ cs.length) : lex (c :: cs) = t :: lex rest := by
  rw [lex, hblank, if_neg Bool.false_ne_true, hmark, hscan]
  exact if_pos hlen

/-! ### Strings -/

/-- A character inside a string: quote marks, backslashes and control characters are escaped. -/
def escape (c : Char) : List Char :=
  if c = '"' ∨ c = '\\' then ['\\', c]
  else if c.toNat < 0x20 then
    ['\\', 'u', '0', '0', Nat.digitChar (c.toNat / 16), Nat.digitChar (c.toNat % 16)]
  else [c]

/-- A text as a string. -/
def quote (s : String) : String := String.ofList ('"' :: s.toList.flatMap escape ++ ['"'])

/-- What the escape of a character is read as. -/
def piece (c : Char) : Piece := if c.toNat < 0x20 then .unit c.toNat else .char c

private theorem unit?_table : ∀ n ∈ List.range 0x20,
    unit? '0' '0' (Nat.digitChar (n / 16)) (Nat.digitChar (n % 16)) = some n := by
  decide

/-- Other characters stand for themselves. -/
theorem pieces_plain {c : Char} (hquote : c ≠ '"') (hslash : c ≠ '\\') (hcontrol : ¬ c.toNat < 0x20)
    (cs : List Char) : pieces (c :: cs) = (pieces cs).map fun r => (piece c :: r.1, r.2) := by
  have hplain : ¬ (c = '\\' ∨ c.toNat < 0x20) := fun h => h.elim hslash hcontrol
  rw [piece, if_neg hcontrol, pieces.eq_def]
  split
  · next heq => cases heq
  · next heq => exact absurd (List.cons.inj heq).1 hquote
  · next heq => exact absurd (List.cons.inj heq).1 hslash
  · next heq => exact absurd (List.cons.inj heq).1 hslash
  · next heq =>
    cases heq
    rw [if_neg hplain]
    cases pieces cs with
    | none => rfl
    | some r => rfl

theorem pieces_escape (c : Char) (cs : List Char) :
    pieces (escape c ++ cs) = (pieces cs).map fun r => (piece c :: r.1, r.2) := by
  unfold escape
  split
  · next hmark =>
    rcases hmark with rfl | rfl
    · cases h : pieces cs with
      | none => simp [pieces, h, shortEscape?]
      | some r => simp [pieces, h, shortEscape?, piece]
    · cases h : pieces cs with
      | none => simp [pieces, h, shortEscape?]
      | some r => simp [pieces, h, shortEscape?, piece]
  · next hmark =>
    rw [not_or] at hmark
    split
    · next hcontrol =>
      have hunit := unit?_table c.toNat (List.mem_range.mpr hcontrol)
      cases h : pieces cs with
      | none => simp [pieces, h, hunit]
      | some r => simp [pieces, h, hunit, piece, hcontrol]
    · next hcontrol => exact pieces_plain hmark.1 hmark.2 hcontrol cs

/-- A number below the surrogates is a character. -/
theorem text?_unit {n : ℕ} (h : n < 0xD800) (ps : List Piece) :
    text? (.unit n :: ps) = (text? ps).map (Char.ofNat n :: ·) := by
  rw [text?.eq_def]
  exact if_pos (Or.inl h)

theorem text?_piece (c : Char) (ps : List Piece) :
    text? (piece c :: ps) = (text? ps).map (c :: ·) := by
  unfold piece
  split
  · next hcontrol =>
    rw [text?_unit (hcontrol.trans (by decide)), Char.ofNat_toNat]
  · rw [text?]

/-- The pieces of an escaped text end at the closing quote mark. -/
theorem pieces_flatMap_escape (cs rest : List Char) :
    pieces (cs.flatMap escape ++ '"' :: rest) = some (cs.map piece, rest) := by
  induction cs with
  | nil => rfl
  | cons c cs ih =>
    rw [List.flatMap_cons, List.append_assoc, pieces_escape, ih]
    rfl

theorem text?_map_piece (cs : List Char) : text? (cs.map piece) = some cs := by
  induction cs with
  | nil => rfl
  | cons c cs ih =>
    rw [List.map_cons, text?_piece, ih]
    rfl

/-- A quoted text is a string with that text. -/
theorem lex_quote (s : String) (rest : List Char) :
    lex ((quote s).toList ++ rest) = .string (some s) :: lex rest := by
  have htext : (quote s).toList ++ rest = '"' :: (s.toList.flatMap escape ++ '"' :: rest) := by
    simp [quote]
  have hscan : scan '"' (s.toList.flatMap escape ++ '"' :: rest) =
      some (.string (some s), rest) := by
    rw [scan, if_pos rfl, scanString, pieces_flatMap_escape]
    simp [text?_map_piece]
  rw [htext]
  refine lex_scan rfl rfl hscan ?_
  rw [List.length_append, List.length_cons]
  omega

/-- The text that a whole JSON text is a string of. -/
def string? (text : String) : Option String :=
  match lex text.toList with
  | [.string s] => s
  | _ => none

theorem string?_eq_some_iff {text s : String} :
    string? text = some s ↔ lex text.toList = [.string (some s)] := by
  unfold string?
  split
  · next t h => simp [h]
  · next h =>
    refine iff_of_false (by simp) fun hs => h (some s) hs

/-- Every text has a string. -/
theorem string?_quote (s : String) : string? (quote s) = some s := by
  have h := lex_quote s []
  rw [List.append_nil, lex] at h
  exact string?_eq_some_iff.mpr h

/-! ### Numbers -/

/-- No number goes on here. -/
def NumberEnds (cs : List Char) : Prop :=
  ∀ c, cs.head? = some c → c.isDigit = false ∧ c ∉ ['.', 'e', 'E']

theorem numberEnds_nil : NumberEnds [] := by
  intro c hc
  cases hc

/-- Punctuation ends a number. -/
theorem numberEnds_punctuation {c : Char} {t : Token} (h : punctuation? c = some t)
    (cs : List Char) : NumberEnds (c :: cs) := by
  intro d hd
  cases hd
  unfold punctuation? at h
  split at h
  all_goals first | cases h; done | exact ⟨rfl, by decide⟩

theorem scanFraction_of_numberEnds {cs : List Char} (h : NumberEnds cs) :
    scanFraction cs = some cs := by
  cases cs with
  | nil => rfl
  | cons c cs =>
    obtain ⟨hdot, he, hE⟩ : c ≠ '.' ∧ c ≠ 'e' ∧ c ≠ 'E' := by simpa using (h c rfl).2
    have hexp : scanExponent (c :: cs) = some (c :: cs) := by
      unfold scanExponent
      split
      all_goals simp_all
    unfold scanFraction
    split
    · simp_all
    · exact hexp

theorem digits_toDigits (n : ℕ) {rest : List Char} (h : NumberEnds rest) :
    digits (Nat.toDigits 10 n ++ rest) = some (Nat.toDigits 10 n, rest) := by
  have hall : ∀ c ∈ Nat.toDigits 10 n, c.isDigit = true := fun c hc =>
    Nat.isDigit_of_mem_toDigits (by decide) (by decide) hc
  have htake : rest.takeWhile Char.isDigit = [] ∧ rest.dropWhile Char.isDigit = rest := by
    cases rest with
    | nil => exact ⟨rfl, rfl⟩
    | cons c rest => simp [(h c rfl).1]
  rw [digits, List.takeWhile_append_of_pos hall, List.dropWhile_append_of_pos hall, htake.1,
    htake.2, List.append_nil, if_neg Nat.toDigits_ne_nil]

/-- No zero stands in front of other digits. -/
theorem head?_toDigits_ne {n : ℕ} (h : 0 < n) : (Nat.toDigits 10 n).head? ≠ some '0' := by
  induction n using Nat.strongRecOn with
  | ind n ih =>
    rw [Nat.toDigits_eq_if (by decide)]
    split
    · have hne : n ≠ 0 := h.ne'
      simp [Nat.digitChar_eq_zero, hne]
    · have hfront := ih (n / 10) (by omega) (by omega)
      obtain ⟨c, ds, hds⟩ :=
        List.exists_cons_of_ne_nil (Nat.toDigits_ne_nil (n := n / 10) (b := 10))
      rw [hds] at hfront ⊢
      exact hfront

theorem scanUnsigned_toDigits (n : ℕ) {rest : List Char} (h : NumberEnds rest) :
    scanUnsigned (Nat.toDigits 10 n ++ rest) = some (.natural n, rest) := by
  have hzero : ¬ ((Nat.toDigits 10 n).head? = some '0' ∧ Nat.toDigits 10 n ≠ ['0']) := by
    rcases Nat.eq_zero_or_pos n with rfl | hpos
    · exact fun hz => hz.2 rfl
    · exact fun hz => head?_toDigits_ne hpos hz.1
  have hvalue : Decimal.value (Nat.toDigits 10 n) = n := Nat.ofDigitChars_ten_toDigits
  simp only [scanUnsigned, digits_toDigits n h, scanFraction_of_numberEnds h, Option.bind_eq_bind,
    Option.bind_some, if_neg hzero, if_pos, hvalue, Option.pure_def]

/-- A decimal numeral is its number. -/
theorem lex_toDigits (n : ℕ) {rest : List Char} (h : NumberEnds rest) :
    lex (Nat.toDigits 10 n ++ rest) = .natural n :: lex rest := by
  obtain ⟨c, ds, hds⟩ := List.exists_cons_of_ne_nil (Nat.toDigits_ne_nil (n := n) (b := 10))
  have hdigit : c.isDigit = true :=
    Nat.isDigit_of_mem_toDigits (n := n) (b := 10) (by decide) (by decide)
      (hds ▸ List.mem_cons_self)
  have hne : ∀ d : Char, d.isDigit = false → c ≠ d := by
    rintro d hd rfl
    rw [hd] at hdigit
    cases hdigit
  have hnumber : scanNumber (c :: (ds ++ rest)) = some (.natural n, rest) := by
    rw [← scanUnsigned_toDigits n h, hds, List.cons_append]
    unfold scanNumber
    split
    · next heq => exact absurd (List.cons.inj heq).1 (hne '-' rfl)
    · rfl
  have hscan : scan c (ds ++ rest) = some (.natural n, rest) := by
    rw [scan, if_neg (hne '"' rfl), hdigit, Bool.or_true, if_pos rfl, hnumber]
  have hblank : isBlank c = false := by
    simp [isBlank, hne ' ' rfl, hne '\t' rfl, hne '\n' rfl, hne '\r' rfl]
  have hmark : punctuation? c = none := by
    unfold punctuation?
    split
    all_goals first | rfl | cases hdigit
  rw [hds, List.cons_append]
  refine lex_scan hblank hmark hscan ?_
  rw [List.length_append]
  omega

/-! ### Written tokens -/

/-- A token as it is written. Strings that are no text, and what is not kept of numbers and words,
are never written. -/
def Token.text : Token → List Char
  | .openBrace => ['{']
  | .closeBrace => ['}']
  | .openBracket => ['[']
  | .closeBracket => [']']
  | .comma => [',']
  | .colon => [':']
  | .string (some s) => (quote s).toList
  | .natural n => Nat.toDigits 10 n
  | .string none | .number | .word | .bad => []

end FieldWords.Json
