import FieldWords.Felt.Conversion

/-!
# Recursive length prefixes

A byte string is written behind a header with its length: none for a single byte below 128, one
byte for at most 55 bytes, and otherwise the length in as few bytes as it takes. A list has headers
of its own in front of its items. A number is the string of its significant bytes, so zero is the
empty string and every number has one form.
-/

-- Powers of numbers are those of `Nat` itself.
attribute [local instance (5000)] instPowNat

namespace FieldWords.Rlp

/-- Why bytes are no encoded number. -/
inductive Error where
  | empty
  | truncated
  | notMinimal
  | lengthOverflow
  | list
  | tooLarge
  deriving DecidableEq, Repr

/-- The name under which an error is reported. -/
def Error.name : Error → String
  | .empty => "RlpIsTooShort"
  | .truncated => "RlpInconsistentLengthAndData"
  | .notMinimal => "RlpInvalidIndirection"
  | .lengthOverflow => "RlpInvalidLength"
  | .list => "RlpExpectedToBeData"
  | .tooLarge => "RlpIsTooBig"

/-! ### Writing -/

/-- The first header byte of an empty string, and of an empty list. -/
def stringBase : Nat := 0x80

def listBase : Nat := 0xC0

/-- The longest content whose length stands in the first header byte. -/
def shortLength : Nat := 55

/-- The header of content of a length. -/
def header (base length : Nat) : List UInt8 :=
  if length ≤ shortLength then [UInt8.ofNat (base + length)]
  else
    let bs := Bytes.minimal 8 length
    UInt8.ofNat (base + shortLength + bs.length) :: bs

/-- A byte string with its header. -/
def encodeString (bs : List UInt8) : List UInt8 :=
  match bs with
  | [b] => if b < 0x80 then [b] else header stringBase 1 ++ [b]
  | bs => header stringBase bs.length ++ bs

/-- A list of encoded items with its header. -/
def encodeList (items : List (List UInt8)) : List UInt8 :=
  header listBase items.flatten.length ++ items.flatten

/-! ### Reading -/

/-- The byte string at the front; bytes after it are left alone. -/
def decodeString : List UInt8 → Except Error (List UInt8)
  | [] => .error .empty
  | l :: bs =>
    if l.toNat < stringBase then .ok [l]
    else if l.toNat ≤ stringBase + shortLength then
      let length := l.toNat - stringBase
      let content := bs.take length
      if bs.length < length then .error .truncated
      else if length = 1 ∧ content.all (· < 0x80) then .error .notMinimal
      else .ok content
    else if l.toNat < listBase then
      let width := l.toNat - (stringBase + shortLength)
      let prefixBytes := bs.take width
      let length := Bytes.value prefixBytes
      if bs.length < width then .error .truncated
      else if prefixBytes.head? = some 0 then .error .notMinimal
      else if 2 ^ (64 : Nat) ≤ 1 + width + length then .error .lengthOverflow
      else if bs.length < width + length then .error .truncated
      else .ok ((bs.drop width).take length)
    else .error .list

/-- The length of content and of its header, by the header: a long form neither begins with a zero
nor holds a length that fits the short form. -/
def frame? (base : Nat) (l : UInt8) (bs : List UInt8) : Option (Nat × Nat) :=
  if l.toNat ≤ base + shortLength then some (1, l.toNat - base)
  else
    let width := l.toNat - (base + shortLength)
    let prefixBytes := bs.take width
    if bs.length < width ∨ prefixBytes.head? = some 0 ∨ Bytes.value prefixBytes ≤ shortLength then
      none
    else some (1 + width, Bytes.value prefixBytes)

/-- The header and the content length of any item, if all of it is there. -/
def item? : List UInt8 → Option (Nat × Nat)
  | [] => none
  | l :: bs =>
    let frame :=
      if l.toNat < stringBase then some (0, 1)
      else if l.toNat < listBase then frame? stringBase l bs
      else frame? listBase l bs
    frame.filter fun f => f.1 + f.2 ≤ bs.length + 1

/-- The items one after the other, up to the first that is not all there. -/
def splitItems : List UInt8 → List (List UInt8)
  | [] => []
  | l :: bs =>
    match item? (l :: bs) with
    | none => []
    | some (header, length) =>
      if 0 < header + length then
        (l :: bs).take (header + length) :: splitItems ((l :: bs).drop (header + length))
      else []
termination_by bs => bs.length
decreasing_by simp only [List.length_drop, List.length_cons]; omega

/-- The items of a list; bytes that are no list have none. The length in the header holds for the
first item: the items after it go on as long as there are bytes. -/
def listItems : List UInt8 → List (List UInt8)
  | [] => []
  | l :: bs =>
    if l.toNat < listBase then []
    else
      match item? (l :: bs) with
      | none => []
      | some (header, length) =>
        let rest := (l :: bs).drop header
        if (item? (rest.take length)).isSome then splitItems rest else []

/-! ### Numbers -/

/-- Numbers that are written as the string of their significant bytes. -/
class Form (α : Type) where
  toContent : α → List UInt8
  ofContent : List UInt8 → Except Error α

instance : Form Felt where
  toContent a := Bytes.trim a.toBytes
  ofContent bs :=
    if bs.head? = some 0 then .error .notMinimal
    else
      match Felt.ofSlice bs with
      | .ok a => .ok a
      | .error _ => .error .tooLarge

instance : Form U256 where
  toContent a := Bytes.trim a.toBytes
  ofContent bs :=
    if bs.head? = some 0 then .error .notMinimal
    else if 32 < bs.length then .error .tooLarge
    else .ok (U256.ofShortBytes bs)

variable {α : Type} [Form α]

def encode (a : α) : List UInt8 := encodeString (Form.toContent a)

def encodeAll (xs : List α) : List UInt8 := encodeList (xs.map encode)

/-- The number at the front. -/
def decode (bs : List UInt8) : Except Error α :=
  match decodeString bs with
  | .ok content => Form.ofContent content
  | .error e => .error e

/-- The numbers of a list, or the error of the first item that is none. -/
def decodeAll (bs : List UInt8) : Except Error (List α) := (listItems bs).mapM decode

end FieldWords.Rlp
