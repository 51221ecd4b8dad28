import FieldWords.U256.Encoding

/-!
# Checked 256-bit arithmetic

Sums carry from the low limb to the high one, differences borrow, and products collect every cross
product of limbs before they decide whether the result fits. Any limb that overflows on the way
is reported as a fault of the whole operation. Quotients and remainders are taken of words.
-/

namespace FieldWords.U256

/-- The sum, unless it leaves 256 bits. -/
def checkedAdd (a b : U256) : Except Fault U256 :=
  let (low, carry) := a.low.addWithCarry b.low
  match (a.high.checkedAdd b.high).bind (·.checkedAdd (.ofBool carry)) with
  | .ok high => .ok ⟨high, low⟩
  | .error _ => .error (.overflow "u256_add")

/-- The difference, unless it is negative. -/
def checkedSub (a b : U256) : Except Fault U256 :=
  let (low, borrow) := a.low.subWithBorrow b.low
  match (a.high.checkedSub b.high).bind (·.checkedSub (.ofBool borrow)) with
  | .ok high => .ok ⟨high, low⟩
  | .error _ => .error (.underflow "u256_sub")

/-- The product of two limbs as an integer of two limbs. -/
def mulLimbs (a b : U128) : U256 :=
  let (high, low) := WideProduct.wideMul a.bits b.bits
  ⟨⟨high⟩, ⟨low⟩⟩

/-- The product, unless it leaves 256 bits. The product of the high limbs and the high halves of
the cross products have no place in the result. -/
def checkedMul (a b : U256) : Except Fault U256 :=
  let lowLow := mulLimbs a.low b.low
  let lowHigh := mulLimbs a.low b.high
  let highLow := mulLimbs a.high b.low
  if !a.high.isZero && !b.high.isZero then .error (.overflow "u256_mul")
  else if !lowHigh.high.isZero || !highLow.high.isZero then .error (.overflow "u256_mul")
  else
    match (lowLow.high.checkedAdd lowHigh.low).bind (·.checkedAdd highLow.low) with
    | .ok high => .ok ⟨high, lowLow.low⟩
    | .error _ => .error (.overflow "u256_mul")

/-- The floor of the quotient, unless the divisor is zero. -/
def checkedDiv (a b : U256) : Except Fault U256 :=
  if b.isZero then .error .divisionByZero else .ok (ofWords (a.toWords.div b.toWords))

/-- The remainder, unless the divisor is zero. -/
def checkedRem (a b : U256) : Except Fault U256 :=
  if b.isZero then .error .divisionByZero else .ok (ofWords (a.toWords.mod b.toWords))

end FieldWords.U256
