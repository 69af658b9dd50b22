import ColumnarQuery.Float.Rounding

/-!
# Floating point numbers in decimal

A number is written with the fewest digits that read back to it in its own width, in positional notation.

* `Decimal` : a natural number of powers of ten, written by `Decimal.positional`;
* `FloatBits.shortest` : of the decimals with the fewest digits that round to a number, the nearest to it;
* `FloatBits.render` : the text of a number, with its sign.
-/

namespace ColumnarQuery

/-- The number `digits * 10 ^ exponent`. -/
structure Decimal where
  digits : Nat
  exponent : Int

namespace Decimal

def tenPow (e : Int) : Rat :=
  if 0 ≤ e then (Nat.pow 10 e.toNat : Nat) else mkRat 1 (Nat.pow 10 (-e).toNat)

def toRat (d : Decimal) : Rat :=
  d.digits * tenPow d.exponent

/-- The digits with a point but no exponent; nothing is written for a zero at the end of the fraction. -/
def positional (d : Decimal) : String :=
  let places := (-d.exponent).toNat
  let text := (Nat.toDigits 10 d.digits ++ List.replicate d.exponent.toNat '0').leftpad (places + 1) '0'
  let whole := text.take (text.length - places)
  let fraction := ((text.drop (text.length - places)).reverse.dropWhile (· = '0')).reverse
  String.ofList (if fraction.isEmpty then whole else whole ++ '.' :: fraction)

/-- The least `k` with `r < 10 ^ k`, for `0 < r`. -/
def exponentAbove (r : Rat) : Int :=
  if 1 ≤ r then (Nat.toDigits 10 r.floor.toNat).length
  else 1 - (Nat.toDigits 10 (r.inv.ceil - 1).toNat).length

/-- Of the two multiples of `10 ^ e` around `r`, the one that passes the test; if both do, the nearer, and the
upper one of two as near. -/
def nearest? (r : Rat) (e : Int) (passes : Decimal → Bool) : Option Decimal :=
  let below : Decimal := ⟨(r / tenPow e).floor.toNat, e⟩
  let above : Decimal := ⟨below.digits + 1, e⟩
  match passes below, passes above with
  | false, false => none
  | true, false => some below
  | false, true => some above
  | true, true => some (if above.toRat - r ≤ r - below.toRat then above else below)

end Decimal

namespace FloatBits

variable {w : FloatWidth}

def exactDecimal (w : FloatWidth) (magnitude : Nat) : Decimal :=
  let r := absOfMagnitude w magnitude
  let places := r.den.log2
  ⟨(r * (Nat.pow 10 places : Nat)).floor.toNat, -places⟩

/-- The shortest decimal that rounds to the number with the given magnitude bits: the first grid of decimals, from
one digit on, on which a neighbour of the number does. -/
def shortest (w : FloatWidth) (magnitude : Nat) : Decimal :=
  let r := absOfMagnitude w magnitude
  let scale := Decimal.exponentAbove r
  let readsBack (d : Decimal) : Bool := nearestMagnitude w d.toRat = magnitude
  ((List.range 17).findSome? fun n => Decimal.nearest? r (scale - (n + 1 : Nat)) readsBack).getD
    (exactDecimal w magnitude)

/-- The text of a number: always positional, an integer without a point. -/
def render (x : FloatBits w) : String :=
  if x.isNaN then "NaN"
  else
    let text :=
      if x.isInfinite then "inf"
      else if x.isZero then "0"
      else (shortest w x.magnitude).positional
    if x.isNegative then "-" ++ text else text

end FloatBits

end ColumnarQuery
