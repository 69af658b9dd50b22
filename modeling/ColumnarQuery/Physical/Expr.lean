import ColumnarQuery.Batch
import ColumnarQuery.Column.Operation

/-!
# Expressions over column positions

* `Physical.Expr` : a computation on each row of a batch, which names columns by position;
* `Physical.Expr.evaluate` : its values on a batch, one per row; a literal is repeated as often as there are rows;
* `Physical.Aggregate` : an aggregate function of the values of an expression.
-/

namespace ColumnarQuery.Physical

inductive Expr where
  | column (index : Nat)
  | literal (value : Value)
  | binary (op : BinaryOp) (left right : Expr)
deriving DecidableEq, Repr

namespace Expr

/-- The values of an expression on a batch; the left operand is computed first. -/
def evaluate (b : Batch) : Expr → Except Error Column
  | column i => b.column i
  | literal v => .ok (.constant v b.rowCount)
  | binary op left right => do
    let l ← left.evaluate b
    let r ← right.evaluate b
    l.apply op r

def render : Expr → String
  | column i => s!"#{i}"
  | literal v => v.renderLiteral
  | binary op left right => s!"{left.render} {op.symbol} {right.render}"

end Expr

structure Aggregate where
  function : AggregateFunction
  input : Expr
deriving DecidableEq, Repr

def Aggregate.render (a : Aggregate) : String :=
  s!"{a.function.name}({a.input.render})"

end ColumnarQuery.Physical
