/-!
# Native operations

The operations of a machine on 128-bit words are a parameter of the steps that are taken with them.
On a machine whose operations wrap everything has a result (`Native.wrapping`).
-/

namespace FieldWords

/-- The native operations on words that can fail, with results in a monad. Shifts by less than a
word and operations on single bits always have a result. -/
structure Native (m : Type → Type) where
  add : BitVec 128 → BitVec 128 → m (BitVec 128)
  sub : BitVec 128 → BitVec 128 → m (BitVec 128)
  mul : BitVec 128 → BitVec 128 → m (BitVec 128)
  div : BitVec 128 → BitVec 128 → m (BitVec 128)
  rem : BitVec 128 → BitVec 128 → m (BitVec 128)

/-- The operations keep the last 128 bits of each result. -/
def Native.wrapping : Native Id where
  add v w := pure (v + w)
  sub v w := pure (v - w)
  mul v w := pure (v * w)
  div v w := pure (v / w)
  rem v w := pure (v % w)

theorem Native.wrapping_sub (v w : BitVec 128) : wrapping.sub v w = pure (v - w) := rfl

end FieldWords
