import ColumnarQuery.Error
import ColumnarQuery.Float.Arithmetic
import ColumnarQuery.Value.Basic

/-!
# Arithmetic on values

* `Arithmetic.onInts` : integer arithmetic, which wraps on overflow and truncates quotients toward zero;
* `Arithmetic.onFloats` : floating point arithmetic;
* `Value.calculate` : a binary operator on two numbers of one type.
-/

namespace ColumnarQuery

/-- Arithmetic modulo the width. The least integer divided by minus one is itself, with nothing left over; by zero
nothing can be divided. -/
def Arithmetic.onInts {n : Nat} (op : Arithmetic) (a b : BitVec n) : Except Error (BitVec n) :=
  if op.divides && b = 0 then .error .divisionByZero
  else match op with
    | add => .ok (a + b)
    | sub => .ok (a - b)
    | mul => .ok (a * b)
    | div => .ok (a.sdiv b)
    | rem => .ok (a.srem b)

def Arithmetic.onFloats {w : FloatWidth} : Arithmetic → FloatBits w → FloatBits w → FloatBits w
  | add => FloatBits.add
  | sub => FloatBits.sub
  | mul => FloatBits.mul
  | div => FloatBits.div
  | rem => FloatBits.rem

namespace Value

def calculate (op : BinaryOp) : Value → Value → Except Error Value
  | int v m, int w n =>
    if h : v = w then
      match op with
      | .arithmetic f => (int v <$> f.onInts m (h ▸ n))
      | _ => .error (.unsupported (.notArithmetic op))
    else .error (.typeMismatch (.int v) (.int w))
  | float v x, float w y =>
    if h : v = w then
      match op with
      | .arithmetic f => .ok (float v (f.onFloats x (h ▸ y)))
      | _ => .error (.unsupported (.notArithmetic op))
    else .error (.typeMismatch (.float v) (.float w))
  | a, b =>
    if a.type = b.type then .error (.unsupported (.operand op a.type))
    else .error (.typeMismatch a.type b.type)

end Value

end ColumnarQuery
