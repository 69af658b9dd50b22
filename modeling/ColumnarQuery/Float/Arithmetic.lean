import ColumnarQuery.Float.Rounding

/-!
# Floating point arithmetic

Each operation takes the exact rational result and rounds it once. Where an operand is a NaN the first NaN is the
answer, in its quiet form.

* `FloatBits.add`, `sub`, `mul`, `div` : the four operations;
* `FloatBits.rem` : the remainder of the division truncated toward zero, with the sign of the dividend.
-/

namespace ColumnarQuery.FloatBits

variable {w : FloatWidth}

/-- The first operand that is a NaN, in its quiet form. -/
def firstNaN? (x y : FloatBits w) : Option (FloatBits w) :=
  if x.isNaN then some x.quiet
  else if y.isNaN then some y.quiet
  else none

/-- The sum of two numbers neither of which is a NaN. A sum of zero is negative only if both operands are. -/
def addNumbers (x y : FloatBits w) : FloatBits w :=
  if x.isInfinite then
    if y.isInfinite && x.isNegative != y.isNegative then invalid w else x
  else if y.isInfinite then y
  else ofRat w (x.isNegative && y.isNegative) (x.toRat + y.toRat)

def add (x y : FloatBits w) : FloatBits w :=
  (firstNaN? x y).getD (addNumbers x y)

def sub (x y : FloatBits w) : FloatBits w :=
  (firstNaN? x y).getD (addNumbers x y.neg)

def mul (x y : FloatBits w) : FloatBits w :=
  let negative := x.isNegative != y.isNegative
  (firstNaN? x y).getD <|
    if x.isInfinite || y.isInfinite then
      if x.isZero || y.isZero then invalid w else infinite w negative
    else ofRat w negative (x.toRat * y.toRat)

def div (x y : FloatBits w) : FloatBits w :=
  let negative := x.isNegative != y.isNegative
  (firstNaN? x y).getD <|
    if x.isInfinite then
      if y.isInfinite then invalid w else infinite w negative
    else if y.isInfinite then zero w negative
    else if y.isZero then
      if x.isZero then invalid w else infinite w negative
    else ofRat w negative (x.toRat / y.toRat)

/-- What is left of `x` after the whole multiples of `y` that fit, with the sign of `x`. -/
def rem (x y : FloatBits w) : FloatBits w :=
  (firstNaN? x y).getD <|
    if x.isInfinite || y.isZero then invalid w
    else if y.isInfinite then x
    else ofMagnitude w x.isNegative (nearestMagnitude w (x.abs - (x.abs / y.abs).floor * y.abs))

end ColumnarQuery.FloatBits
