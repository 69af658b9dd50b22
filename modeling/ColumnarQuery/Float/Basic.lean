import ColumnarQuery.DataType

/-!
# Binary floating point numbers by their bits

A number is kept as its bit pattern, so that equality tells apart the zeros and the NaNs of different payload.
`FloatBits.compare` is the order of the numbers, in which the zeros are equal and a NaN has no place.
-/

namespace ColumnarQuery

namespace FloatWidth

def fractionBits : FloatWidth → Nat
  | single => 23
  | double => 52

def exponentBits : FloatWidth → Nat
  | single => 8
  | double => 11

/-- The exponent of the least positive number, a power of two. -/
def minExponent : FloatWidth → Int
  | single => -149
  | double => -1074

/-- The magnitude bits of infinity: every exponent bit and no fraction bit. -/
def infinity (w : FloatWidth) : Nat :=
  (1 <<< w.exponentBits - 1) <<< w.fractionBits

/-- The fraction bit that marks a NaN as quiet. -/
def quietBit (w : FloatWidth) : Nat :=
  1 <<< (w.fractionBits - 1)

end FloatWidth

/-- A binary floating point number of width `w`, as its bit pattern. -/
structure FloatBits (w : FloatWidth) where
  bits : BitVec w.bits
deriving DecidableEq, Repr

namespace FloatBits

variable {w : FloatWidth}

def ofMagnitude (w : FloatWidth) (negative : Bool) (magnitude : Nat) : FloatBits w :=
  ⟨BitVec.ofNat _ (negative.toNat <<< (w.bits - 1) + magnitude)⟩

def isNegative (x : FloatBits w) : Bool :=
  x.bits.msb

/-- The bits below the sign, which grow with the absolute value. -/
def magnitude (x : FloatBits w) : Nat :=
  x.bits.toNat % 1 <<< (w.bits - 1)

def isNaN (x : FloatBits w) : Bool :=
  w.infinity < x.magnitude

def isInfinite (x : FloatBits w) : Bool :=
  x.magnitude = w.infinity

def isZero (x : FloatBits w) : Bool :=
  x.magnitude = 0

def neg (x : FloatBits w) : FloatBits w :=
  ofMagnitude w (!x.isNegative) x.magnitude

def infinite (w : FloatWidth) (negative : Bool) : FloatBits w :=
  ofMagnitude w negative w.infinity

def zero (w : FloatWidth) (negative : Bool) : FloatBits w :=
  ofMagnitude w negative 0

/-- The answer of an operation that has none: the quiet NaN with the sign bit set. -/
def invalid (w : FloatWidth) : FloatBits w :=
  ofMagnitude w true (w.infinity + w.quietBit)

def quiet (x : FloatBits w) : FloatBits w :=
  ⟨x.bits ||| BitVec.ofNat _ w.quietBit⟩

/-! ## The value of a finite number -/

def twoPow (e : Int) : Rat :=
  if 0 ≤ e then (1 <<< e.toNat : Nat) else mkRat 1 (1 <<< (-e).toNat)

/-- The absolute value of a finite number with the given magnitude bits: below the first full exponent the
significand has no hidden bit. -/
def absOfMagnitude (w : FloatWidth) (magnitude : Nat) : Rat :=
  let exponent := magnitude >>> w.fractionBits
  let fraction := magnitude % 1 <<< w.fractionBits
  if exponent = 0 then fraction * twoPow w.minExponent
  else (1 <<< w.fractionBits + fraction : Nat) * twoPow (w.minExponent + (exponent - 1 : Nat))

def abs (x : FloatBits w) : Rat :=
  absOfMagnitude w x.magnitude

/-- The value of a finite number. -/
def toRat (x : FloatBits w) : Rat :=
  if x.isNegative then -x.abs else x.abs

/-! ## Order -/

/-- An integer that grows with the number: the magnitude bits under the sign. Both zeros have the key zero. -/
def orderKey (x : FloatBits w) : Int :=
  if x.isNegative then -x.magnitude else x.magnitude

/-- The order of two numbers, none if one of them is a NaN. -/
def compare (x y : FloatBits w) : Option Ordering :=
  if x.isNaN || y.isNaN then none
  else if x.orderKey < y.orderKey then some .lt
  else if x.orderKey = y.orderKey then some .eq
  else some .gt

end FloatBits

end ColumnarQuery
