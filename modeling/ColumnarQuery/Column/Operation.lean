import ColumnarQuery.Column.Basic
import ColumnarQuery.Value.Operation

/-!
# Binary operators on columns

* `tabulate` : the values of a function at the first indices, or the first error among them;
* `Column.zipWith` : an operation on the values of two columns, index by index;
* `Column.apply` : a binary operator on two columns of one length and type.
-/

namespace ColumnarQuery

/-- The values of `f` at `start`, `start + 1`, …, `n` of them, or the first error. -/
def tabulateFrom {α : Type} (f : Nat → Except Error α) : (n start : Nat) → Except Error (List α)
  | 0, _ => .ok []
  | n + 1, start => do
    let x ← f start
    let xs ← tabulateFrom f n (start + 1)
    return x :: xs

def tabulate {α : Type} (n : Nat) (f : Nat → Except Error α) : Except Error (List α) :=
  tabulateFrom f n 0

namespace Column

def zipWith (f : Value → Value → Except Error Value) (l r : Column) : Except Error (List Value) :=
  tabulate l.length fun i => do f (← l.valueAt i) (← r.valueAt i)

/-- A binary operator on two columns: their lengths must agree, then their types, then the operator must accept the
type; an error of single values comes last. -/
def apply (op : BinaryOp) (l r : Column) : Except Error Column :=
  if l.length ≠ r.length then .error (.lengthMismatch l.length r.length)
  else if l.type ≠ r.type then .error (.typeMismatch l.type r.type)
  else if !op.accepts l.type then .error (.unsupported (.operand op l.type))
  else do
    ofValues (op.resultType l.type) (← zipWith (Value.apply op) l r)

end Column

end ColumnarQuery
