import FieldWords.Fault
import FieldWords.Felt.Reading

/-!
# Payloads

A payload is what a raised panic carries: field elements, normally spelling a message. A message is
cut into groups of 31 bytes with the remainder in front, so that each element after the first holds
exactly 31 bytes; reading back, the first element drops its leading zeros and every later one gives
its last 31 bytes.
-/

namespace FieldWords

/-- The elements that a panic carries. -/
structure Payload where
  values : List Felt
  deriving DecidableEq

namespace Payload

def empty : Payload := ⟨[]⟩

/-- The groups of bytes that the elements of a message hold. -/
def messageGroups (bs : List UInt8) : List (List UInt8) :=
  let head := bs.take (bs.length % Felt.shortStringLength)
  let tail := bs.drop (bs.length % Felt.shortStringLength)
  let groups := Bytes.groups Felt.shortStringLength (bs.length / Felt.shortStringLength) tail
  if head.isEmpty then groups else head :: groups

/-- The payload that spells a message. -/
def ofMessage (message : String) : Payload :=
  ⟨(messageGroups (Utf8.encode message)).map Felt.ofShortBytes⟩

/-- The payload that spells the message of a fault. -/
def ofFault (fault : Fault) : Payload := ofMessage fault.message

/-- The last 31 bytes of an element. -/
def lastBytes (a : Felt) : List UInt8 := a.toBytes.drop (32 - Felt.shortStringLength)

/-- The bytes that elements spell. -/
def spelled : List Felt → List UInt8
  | [] => []
  | a :: rest => Bytes.trim a.toBytes ++ rest.flatMap lastBytes

/-- The message of a payload; bytes that are no text are replaced. -/
def message (p : Payload) : String := Utf8.decodeLossy (spelled p.values)

/-- Whether a list begins at some place of another. -/
def occursIn {α : Type} [DecidableEq α] (run : List α) : List α → Bool
  | [] => run.isEmpty
  | x :: xs => run.isPrefixOf (x :: xs) || occursIn run xs

/-- Whether the elements that spell a message stand one after the other in the payload. -/
def containsMessage (p : Payload) (message : String) : Bool :=
  occursIn (ofMessage message).values p.values

instance : Inspect Payload :=
  ⟨fun p => .tuple "PanicPayload" [.list (p.values.map Inspect.outline)]⟩

end Payload

end FieldWords
