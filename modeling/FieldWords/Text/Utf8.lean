/-!
# UTF-8

Text is encoded character by character. Decoding is lossy: each longest ill-formed piece of a byte
string becomes one replacement character. The decoder is a machine that reads one byte at a time;
between characters it reads an encoded character back (`decodeFrom_encodeChar`), and inside an
unfinished character a byte that cannot continue it ends it first (`decodeFrom_inside`).
-/

namespace FieldWords.Utf8

/-- The bytes of a list of characters. -/
def encodeChars (cs : List Char) : List UInt8 := cs.flatMap String.utf8EncodeChar

@[simp] theorem encodeChars_nil : encodeChars [] = [] := rfl

@[simp] theorem encodeChars_cons (c : Char) (cs : List Char) :
    encodeChars (c :: cs) = String.utf8EncodeChar c ++ encodeChars cs := rfl

@[simp] theorem encodeChars_append (as bs : List Char) :
    encodeChars (as ++ bs) = encodeChars as ++ encodeChars bs := by
  simp [encodeChars]

/-- The bytes of a text. -/
def encode (s : String) : List UInt8 := encodeChars s.toList

/-- Stands for bytes that are no text. -/
def replacement : Char := '\uFFFD'

/-- Where the decoder stands: between characters, or inside one with some leading bits read, `more`
bytes wanted after the next, and the next between `low` and `high`. -/
inductive State where
  | between
  | inside (bits more low high : Nat)

/-- The byte that begins a character, or is one, or can do neither. -/
def start (b : UInt8) : List Char × State :=
  let n := b.toNat
  if n < 0x80 then ([Char.ofNat n], .between)
  else if n < 0xC2 then ([replacement], .between)
  else if n < 0xE0 then ([], .inside (n - 0xC0) 0 0x80 0xBF)
  else if n < 0xF0 then
    ([], .inside (n - 0xE0) 1 (if n = 0xE0 then 0xA0 else 0x80) (if n = 0xED then 0x9F else 0xBF))
  else if n < 0xF5 then
    ([], .inside (n - 0xF0) 2 (if n = 0xF0 then 0x90 else 0x80) (if n = 0xF4 then 0x8F else 0xBF))
  else ([replacement], .between)

/-- The characters that one byte completes, and the state after it. -/
def step : State → UInt8 → List Char × State
  | .between, b => start b
  | .inside bits more low high, b =>
    if low ≤ b.toNat ∧ b.toNat ≤ high then
      match more with
      | 0 => ([Char.ofNat (64 * bits + (b.toNat - 0x80))], .between)
      | more + 1 => ([], .inside (64 * bits + (b.toNat - 0x80)) more 0x80 0xBF)
    else (replacement :: (start b).1, (start b).2)

/-- What an unfinished character leaves. -/
def State.flush : State → List Char
  | .between => []
  | .inside .. => [replacement]

/-- The characters read from a state on. -/
def decodeFrom : State → List UInt8 → List Char
  | q, [] => q.flush
  | q, b :: bs => (step q b).1 ++ decodeFrom (step q b).2 bs

/-- The text of arbitrary bytes. -/
def decodeLossy (bs : List UInt8) : String := String.ofList (decodeFrom .between bs)

/-! ### Reading encoded text -/

/-- A byte that cannot continue a character ends an unfinished one. -/
theorem decodeFrom_inside {bits more low high : Nat} {b : UInt8}
    (h : b.toNat < low ∨ high < b.toNat) (bs : List UInt8) :
    decodeFrom (.inside bits more low high) (b :: bs)
      = replacement :: decodeFrom .between (b :: bs) := by
  have : ¬ (low ≤ b.toNat ∧ b.toNat ≤ high) := by omega
  simp [decodeFrom, step, this]

/-- A continuation byte in range is absorbed; more are wanted. -/
theorem decodeFrom_inside_succ {bits more low high n : Nat} (hn : n < 256) (hl : low ≤ n)
    (hh : n ≤ high) (bs : List UInt8) :
    decodeFrom (.inside bits (more + 1) low high) (UInt8.ofNat n :: bs)
      = decodeFrom (.inside (64 * bits + (n - 0x80)) more 0x80 0xBF) bs := by
  have ht : (UInt8.ofNat n).toNat = n := by rw [UInt8.toNat_ofNat']; omega
  simp [decodeFrom, step, ht, hl, hh]

/-- The last continuation byte completes the character. -/
theorem decodeFrom_inside_zero {bits low high n : Nat} (hn : n < 256) (hl : low ≤ n)
    (hh : n ≤ high) (bs : List UInt8) :
    decodeFrom (.inside bits 0 low high) (UInt8.ofNat n :: bs)
      = Char.ofNat (64 * bits + (n - 0x80)) :: decodeFrom .between bs := by
  have ht : (UInt8.ofNat n).toNat = n := by rw [UInt8.toNat_ofNat']; omega
  simp [decodeFrom, step, ht, hl, hh]

/-- An encoded character is read back. -/
theorem decodeFrom_encodeChar (c : Char) (bs : List UInt8) :
    decodeFrom .between (String.utf8EncodeChar c ++ bs) = c :: decodeFrom .between bs := by
  have hc : Char.ofNat c.val.toNat = c := by simp
  have hv : c.val.toNat < 0xD800 ∨ 0xDFFF < c.val.toNat ∧ c.val.toNat < 0x110000 := c.valid
  generalize hn : c.val.toNat = n at hc hv
  unfold String.utf8EncodeChar
  simp only [hn]
  by_cases h1 : n ≤ 127
  · have ht : (UInt8.ofNat n).toNat = n := by rw [UInt8.toNat_ofNat']; omega
    have : n < 128 := by omega
    simp [h1, decodeFrom, step, start, ht, this, hc]
  by_cases h2 : n ≤ 2047
  · have ht : (UInt8.ofNat (n / 64 % 32 + 192)).toNat = n / 64 % 32 + 192 := by
      rw [UInt8.toNat_ofNat']; omega
    simp only [h1, h2, if_true, if_false, List.cons_append, List.nil_append]
    rw [decodeFrom, step, start, ht, if_neg (by omega), if_neg (by omega), if_pos (by omega)]
    simp only [List.nil_append]
    rw [decodeFrom_inside_zero (by omega) (by omega) (by omega),
      show 64 * (n / 64 % 32 + 192 - 0xC0) + (n % 64 + 128 - 0x80) = n by omega, hc]
  by_cases h3 : n ≤ 65535
  · have ht : (UInt8.ofNat (n / 4096 % 16 + 224)).toNat = n / 4096 % 16 + 224 := by
      rw [UInt8.toNat_ofNat']; omega
    simp only [h1, h2, h3, if_true, if_false, List.cons_append, List.nil_append]
    rw [decodeFrom, step, start, ht, if_neg (by omega), if_neg (by omega), if_neg (by omega),
      if_pos (by omega)]
    simp only [List.nil_append]
    rw [decodeFrom_inside_succ (by omega) (by split <;> omega) (by split <;> omega),
      decodeFrom_inside_zero (by omega) (by omega) (by omega),
      show 64 * (64 * (n / 4096 % 16 + 224 - 0xE0) + (n / 64 % 64 + 128 - 0x80)) +
        (n % 64 + 128 - 0x80) = n by omega, hc]
  · have ht : (UInt8.ofNat (n / 262144 % 8 + 240)).toNat = n / 262144 % 8 + 240 := by
      rw [UInt8.toNat_ofNat']; omega
    simp only [h1, h2, h3, if_false, List.cons_append, List.nil_append]
    rw [decodeFrom, step, start, ht, if_neg (by omega), if_neg (by omega), if_neg (by omega),
      if_neg (by omega), if_pos (by omega)]
    simp only [List.nil_append]
    rw [decodeFrom_inside_succ (by omega) (by split <;> omega) (by split <;> omega),
      decodeFrom_inside_succ (by omega) (by omega) (by omega),
      decodeFrom_inside_zero (by omega) (by omega) (by omega),
      show 64 * (64 * (64 * (n / 262144 % 8 + 240 - 0xF0) + (n / 4096 % 64 + 128 - 0x80)) +
        (n / 64 % 64 + 128 - 0x80)) + (n % 64 + 128 - 0x80) = n by omega, hc]

/-- Encoded text is read back, and what follows it is read as if it stood alone. -/
theorem decodeFrom_encodeChars (cs : List Char) (bs : List UInt8) :
    decodeFrom .between (encodeChars cs ++ bs) = cs ++ decodeFrom .between bs := by
  induction cs with
  | nil => rfl
  | cons c cs ih => rw [encodeChars_cons, List.append_assoc, decodeFrom_encodeChar, ih]; rfl

@[simp] theorem decodeLossy_encode (s : String) : decodeLossy (encode s) = s := by
  have h := decodeFrom_encodeChars s.toList []
  simp only [List.append_nil] at h
  simp [decodeLossy, encode, h, decodeFrom, State.flush]

/-- Different texts have different bytes. -/
theorem encode_injective {s t : String} (h : encode s = encode t) : s = t := by
  rw [← decodeLossy_encode s, h, decodeLossy_encode]

end FieldWords.Utf8
