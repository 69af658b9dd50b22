import ColumnarQuery.Value.Arithmetic
import ColumnarQuery.Value.Order

/-!
# Binary operators on values

`Value.apply` is the answer of any binary operator on two values of one type.
-/

namespace ColumnarQuery

def Value.apply (op : BinaryOp) (a b : Value) : Except Error Value :=
  match op, a, b with
  | .comparison c, a, b => do
    return .boolean (c.holds (← a.compare b))
  | .connective c, .boolean p, .boolean q => .ok (.boolean (c.apply p q))
  | .connective _, a, _ => .error (.unsupported (.operand op a.type))
  | .arithmetic _, a, b => a.calculate op b

end ColumnarQuery
