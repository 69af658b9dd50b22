import ColumnarQuery.Physical.Expr
import ColumnarQuery.Source.Basic
import ColumnarQuery.Text.Outline

/-!
# Plans over column positions

* `Physical.Plan` : the steps of a query with its columns found;
* `Physical.Plan.schema` : the schema of the batches that a plan returns;
* `Physical.Plan.render`, `Physical.Plan.format` : the text of a step, and of the plan as an outline.
-/

namespace ColumnarQuery.Physical

inductive Plan where
  /-- Reads the named columns of a source, or all if none are named. -/
  | scan (source : Source) (projection : List String)
  | project (input : Plan) (schema : Schema) (exprs : List Expr)
  | filter (input : Plan) (predicate : Expr)
  | aggregate (input : Plan) (schema : Schema) (keys : List Expr) (aggregates : List Aggregate)

namespace Plan

def schema : Plan → Schema
  | scan source projection => source.schema.select projection
  | project _ schema _ => schema
  | filter input _ => input.schema
  | aggregate _ schema _ _ => schema

def input? : Plan → Option Plan
  | scan _ _ => none
  | project input _ _ | filter input _ | aggregate input _ _ _ => some input

def render : Plan → String
  | scan source projection =>
    s!"ScanExec: schema={(source.schema.select projection).render}, projection={Text.columnNames projection}"
  | project _ _ exprs => s!"ProjectionExec: {Text.commaList (exprs.map Expr.render)}"
  | filter _ predicate => s!"SelectionExec: {predicate.render}"
  | aggregate _ _ keys aggregates =>
    let keys := Text.commaList (keys.map Expr.render)
    let aggregates := Text.commaList (aggregates.map Aggregate.render)
    s!"HashAggregateExec: groupExpr=[{keys}], aggrExpr=[{aggregates}]"

/-- The steps as an outline from a level on, the last one first. -/
def format (level : Nat) : Plan → String
  | p@(scan _ _) => Text.outlineLine level p.render
  | p@(project input _ _) | p@(filter input _) | p@(aggregate input _ _ _) =>
    Text.outlineLine level p.render ++ input.format (level + 1)

end Plan

end ColumnarQuery.Physical
