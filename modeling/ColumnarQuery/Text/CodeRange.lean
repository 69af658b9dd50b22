/-!
# Sets of characters by ranges of code points

`CodeRange.contains` looks a character up in an ascending list of ranges.
-/

namespace ColumnarQuery

/-- A range of code points, ends included. -/
abbrev CodeRange := Nat × Nat

/-- The character lies in one of the ranges, which ascend. -/
def CodeRange.contains (c : Char) : List CodeRange → Bool
  | [] => false
  | (first, last) :: rest => if c.toNat < first then false else c.toNat ≤ last || contains c rest

end ColumnarQuery
