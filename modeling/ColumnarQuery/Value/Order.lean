import ColumnarQuery.Error
import ColumnarQuery.Value.Basic

/-!
# Order of values

* `compareInts`, `compareChars` : the order of integers, and of texts by code points;
* `Value.compare` : the order of two values of one type, none if one of them is a NaN.
-/

namespace ColumnarQuery

def compareInts (m n : Int) : Ordering :=
  if m < n then .lt else if m = n then .eq else .gt

/-- Lexicographic order by code points. -/
def compareChars : List Char → List Char → Ordering
  | [], [] => .eq
  | [], _ :: _ => .lt
  | _ :: _, [] => .gt
  | c :: cs, d :: ds =>
    if c.toNat < d.toNat then .lt
    else if c.toNat = d.toNat then compareChars cs ds
    else .gt

namespace Value

/-- The order of two values of one type; values of different types have none to speak of. -/
def compare : Value → Value → Except Error (Option Ordering)
  | boolean a, boolean b => .ok (some (compareInts a.toNat b.toNat))
  | int v m, int w n =>
    if v = w then .ok (some (compareInts m.toInt n.toInt)) else .error (.typeMismatch (.int v) (.int w))
  | float v x, float w y =>
    if h : v = w then .ok (x.compare (h ▸ y)) else .error (.typeMismatch (.float v) (.float w))
  | text s, text t => .ok (some (compareChars s.toList t.toList))
  | a, b => .error (.typeMismatch a.type b.type)

end Value

end ColumnarQuery
