import ColumnarQuery.Float.Basic

/-!
# Rounding to a floating point number

* `roundHalfEven` : the nearest natural number, of two the even one;
* `FloatBits.ofRat` : the nearest number of a width, of two the one with an even significand; what lies half a unit
  or more above the largest finite number becomes infinity;
* `FloatBits.ofInt`, `FloatBits.widen` : conversion of integers and of single numbers.
-/

namespace ColumnarQuery

/-- The natural number nearest to `r`, for `0 ≤ r`; of two the even one. -/
def roundHalfEven (r : Rat) : Nat :=
  let n := r.floor.toNat
  let rest := r - n
  if rest < mkRat 1 2 then n
  else if mkRat 1 2 < rest then n + 1
  else if n % 2 = 0 then n
  else n + 1

/-- The greatest `e` with `2 ^ e ≤ r`, for `0 < r`. -/
def binaryExponent (r : Rat) : Int :=
  let estimate : Int := r.num.natAbs.log2 - r.den.log2
  if r < FloatBits.twoPow estimate then estimate - 1 else estimate

namespace FloatBits

/-- The magnitude bits of the number nearest to `r`, for `0 ≤ r`. The significand counts units of the last place,
and its hidden bit adds one to the exponent field, as does a carry out of it. -/
def nearestMagnitude (w : FloatWidth) (r : Rat) : Nat :=
  if r = 0 then 0 else
  let unit := max (binaryExponent r - w.fractionBits) w.minExponent
  let significand := roundHalfEven (r / twoPow unit)
  min ((unit - w.minExponent).toNat <<< w.fractionBits + significand) w.infinity

/-- The number nearest to `r`, with the given sign where that is zero. -/
def ofRat (w : FloatWidth) (zeroNegative : Bool) (r : Rat) : FloatBits w :=
  let negative := if r = 0 then zeroNegative else r < 0
  ofMagnitude w negative (nearestMagnitude w r.abs)

def ofInt (w : FloatWidth) (n : Int) : FloatBits w :=
  ofRat w false n

/-- A number in the double width, which holds each number of either width; a NaN keeps sign and payload. -/
def widen : {w : FloatWidth} → FloatBits w → FloatBits .double
  | .double, x => x
  | .single, x =>
    let shift := FloatWidth.double.fractionBits - FloatWidth.single.fractionBits
    if x.isNaN then
      let payload := x.quiet.magnitude % 1 <<< FloatWidth.single.fractionBits
      ofMagnitude .double x.isNegative (FloatWidth.double.infinity + payload <<< shift)
    else if x.isInfinite then infinite .double x.isNegative
    else ofRat .double x.isNegative x.toRat

end FloatBits

end ColumnarQuery
