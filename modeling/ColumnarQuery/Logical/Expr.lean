import ColumnarQuery.Physical.Expr

/-!
# Expressions over column names

A `Logical.Expr` names columns by name; `Logical.Expr.resolve` finds the position of each under a schema.
-/

namespace ColumnarQuery.Logical

inductive Expr where
  | column (name : String)
  | literal (value : Value)
  | binary (op : BinaryOp) (left right : Expr)
  /-- An aggregate, which has a field but no value per row. -/
  | aggregate (function : AggregateFunction) (input : Expr)
  /-- The same values under another name. -/
  | renamed (expr : Expr) (name : String)
deriving DecidableEq, Repr

def aggregateField (function : AggregateFunction) (input : Field) : Field where
  name := function.name
  type := function.resultType input.type
  nullable := input.nullable

/-- The field of a binary operator with the given left operand; a boolean is never null. -/
def binaryField (op : BinaryOp) (left : Field) : Field where
  name := op.name
  type := op.resultType left.type
  nullable := op.isArithmetic && left.nullable

namespace Expr

/-- The field of the values of an expression under a schema. The types of two operands are not compared. -/
def fieldIn (s : Schema) : Expr → Except Error Field
  | column name => s.fieldNamed name
  | literal v => .ok { name := v.render, type := v.type, nullable := true }
  | binary op left right => do
    let l ← left.fieldIn s
    let _ ← right.fieldIn s
    return binaryField op l
  | aggregate function input => do
    return aggregateField function (← input.fieldIn s)
  | renamed expr name => do
    return (← expr.fieldIn s).withName name

/-- The text of an expression; operands stand in no brackets. -/
def render : Expr → String
  | column name => s!"#{name}"
  | literal v => v.renderLiteral
  | binary op left right => s!"{left.render} {op.symbol} {right.render}"
  | aggregate function input => s!"{function.name}({input.render})"
  | renamed expr name => s!"{expr.render} as {name}"

/-- The expression with the position of each column under a schema, and without its renamings. -/
def resolve (s : Schema) : Expr → Except Error Physical.Expr
  | column name => .column <$> s.indexOf name
  | literal v => .ok (.literal v)
  | binary op left right => do
    let l ← left.resolve s
    let r ← right.resolve s
    return .binary op l r
  | aggregate function input =>
    .error (.unsupported (.nestedAggregate (aggregate function input).render))
  | renamed expr _ => expr.resolve s

end Expr

structure Aggregate where
  function : AggregateFunction
  input : Expr
deriving DecidableEq, Repr

namespace Aggregate

def toExpr (a : Aggregate) : Expr :=
  .aggregate a.function a.input

def fieldIn (s : Schema) (a : Aggregate) : Except Error Field :=
  a.toExpr.fieldIn s

def render (a : Aggregate) : String :=
  a.toExpr.render

def resolve (s : Schema) (a : Aggregate) : Except Error Physical.Aggregate :=
  .mk a.function <$> a.input.resolve s

end Aggregate

end ColumnarQuery.Logical
