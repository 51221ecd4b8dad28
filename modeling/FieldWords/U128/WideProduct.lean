import FieldWords.U128.Native

/-!
# Wide products

The full product of two 128-bit words as a high and a low word, computed with native operations on
64-bit halves: four partial products, and a middle column whose carry goes to the high word. The
product is what these steps come to on operations that wrap.
-/

namespace FieldWords.WideProduct

/-- A machine word of 128 bits. -/
abbrev Word := BitVec 128

/-- The lower 64 bits of a word. -/
def lowHalf (a : Word) : Word := a &&& 0xFFFFFFFFFFFFFFFF#128

/-- The upper 64 bits of a word. -/
def highHalf (a : Word) : Word := a >>> 64

/-- The products of the halves of two words, named for the first factor's half and then the
second's. -/
structure Columns where
  lowLow : Word
  highLow : Word
  lowHigh : Word
  highHigh : Word

/-! ### Steps on native operations -/

section Steps

variable {m : Type → Type} [Monad m] (native : Native m)

/-- The four partial products of two words. -/
def columnsOn (a b : Word) : m Columns := do
  let lowLow ← native.mul (lowHalf a) (lowHalf b)
  let highLow ← native.mul (highHalf a) (lowHalf b)
  let lowHigh ← native.mul (lowHalf a) (highHalf b)
  let highHigh ← native.mul (highHalf a) (highHalf b)
  return ⟨lowLow, highLow, lowHigh, highHigh⟩

namespace Columns

/-- What the partial products add at bit 64. -/
def middleOn (c : Columns) : m Word := do
  let sum ← native.add (highHalf c.lowLow) (lowHalf c.highLow)
  native.add sum (lowHalf c.lowHigh)

/-- The low word of the product, below what the middle column carries. -/
def lowBelow (c : Columns) (middle : Word) : Word := (middle <<< 64) ||| lowHalf c.lowLow

/-- The high word of the product, with what the middle column carries. -/
def highOn (c : Columns) (middle : Word) : m Word := do
  let sum ← native.add c.highHigh (highHalf c.highLow)
  let sum ← native.add sum (highHalf c.lowHigh)
  native.add sum (highHalf middle)

end Columns

/-- The high and the low word of a product. -/
def wideMulOn (a b : Word) : m (Word × Word) := do
  let c ← columnsOn native a b
  let middle ← c.middleOn native
  let high ← c.highOn native middle
  return (high, c.lowBelow middle)

end Steps

/-! ### Products -/

/-- The four partial products of two words. -/
def columns (a b : Word) : Columns := (columnsOn .wrapping a b).run

theorem columns_eq (a b : Word) :
    columns a b = ⟨lowHalf a * lowHalf b, highHalf a * lowHalf b, lowHalf a * highHalf b,
      highHalf a * highHalf b⟩ := rfl

namespace Columns

/-- What the partial products add at bit 64. -/
def middle (c : Columns) : Word := (c.middleOn .wrapping).run

theorem middle_eq (c : Columns) :
    c.middle = highHalf c.lowLow + lowHalf c.highLow + lowHalf c.lowHigh := rfl

/-- The low word of the product. -/
def low (c : Columns) : Word := c.lowBelow c.middle

theorem low_eq (c : Columns) : c.low = (c.middle <<< 64) ||| lowHalf c.lowLow := rfl

/-- The high word of the product. -/
def high (c : Columns) : Word := (c.highOn .wrapping c.middle).run

theorem high_eq (c : Columns) :
    c.high = c.highHigh + highHalf c.highLow + highHalf c.lowHigh + highHalf c.middle := rfl

end Columns

/-- The high and the low word of a product. -/
def wideMul (a b : Word) : Word × Word := (wideMulOn .wrapping a b).run

theorem wideMul_eq (a b : Word) : wideMul a b = ((columns a b).high, (columns a b).low) := rfl

end FieldWords.WideProduct
