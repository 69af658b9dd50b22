import ColumnarQuery.Logical.Expr
import ColumnarQuery.Source.Basic
import ColumnarQuery.Text.Outline

/-!
# Plans over column names

* `Logical.Plan` : the steps of a query as they are asked for;
* `Logical.Plan.schema` : the schema of its rows, whose names must differ after each computation of columns;
* `Logical.Plan.render`, `Logical.Plan.format` : the text of a step, and of the plan as an outline.
-/

namespace ColumnarQuery.Logical

/-- The steps of a query, the last one outermost. -/
inductive Plan where
  /-- Reads the named columns of a source, or all if none are named. -/
  | scan (path : String) (source : Source) (projection : List String)
  | project (input : Plan) (exprs : List Expr)
  | filter (input : Plan) (predicate : Expr)
  | aggregate (input : Plan) (keys : List Expr) (aggregates : List Aggregate)

def projectionSchema (input : Schema) (exprs : List Expr) : Except Error Schema := do
  Schema.checked (← exprs.mapM (·.fieldIn input))

/-- The schema of a column per key and then one per aggregate. -/
def aggregateSchema (input : Schema) (keys : List Expr) (aggregates : List Aggregate) :
    Except Error Schema := do
  let keyFields ← keys.mapM (·.fieldIn input)
  let aggregateFields ← aggregates.mapM (·.fieldIn input)
  Schema.checked (keyFields ++ aggregateFields)

namespace Plan

def schema : Plan → Except Error Schema
  | scan _ source projection => .ok (source.schema.select projection)
  | project input exprs => do
    projectionSchema (← input.schema) exprs
  | filter input _ => input.schema
  | aggregate input keys aggregates => do
    aggregateSchema (← input.schema) keys aggregates

def input? : Plan → Option Plan
  | scan _ _ _ => none
  | project input _ | filter input _ | aggregate input _ _ => some input

def render : Plan → String
  | scan path _ projection => s!"Scan: {path}; projection={Text.columnNames projection}"
  | project _ exprs => s!"Projection: {Text.commaList (exprs.map Expr.render)}"
  | filter _ predicate => s!"Filter: {predicate.render}"
  | aggregate _ keys aggregates =>
    let keys := Text.commaList (keys.map Expr.render)
    let aggregates := Text.commaList (aggregates.map Aggregate.render)
    s!"Aggregate: groupExpr=[{keys}], aggregateExpr=[{aggregates}]"

/-- The steps as an outline from a level on, the last one first. -/
def format (level : Nat) : Plan → String
  | p@(scan _ _ _) => Text.outlineLine level p.render
  | p@(project input _) | p@(filter input _) | p@(aggregate input _ _) =>
    Text.outlineLine level p.render ++ input.format (level + 1)

end Plan

end ColumnarQuery.Logical
