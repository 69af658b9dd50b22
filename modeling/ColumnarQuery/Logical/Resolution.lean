import ColumnarQuery.Logical.Plan
import ColumnarQuery.Physical.Execution

/-!
# Finding the columns of a plan

* `Logical.Plan.resolve` : the plan with each column found in the schema of the step before;
* `Logical.Plan.execute` : the batches of a plan.
-/

namespace ColumnarQuery.Logical.Plan

/-- The plan with the position of each column. A step is resolved after the one before it, its schema before its
expressions. -/
def resolve : Plan → Except Error Physical.Plan
  | scan _ source projection => .ok (.scan source projection)
  | project input exprs => do
    let plan ← input.resolve
    let schema ← projectionSchema plan.schema exprs
    return .project plan schema (← exprs.mapM (·.resolve plan.schema))
  | filter input predicate => do
    let plan ← input.resolve
    return .filter plan (← predicate.resolve plan.schema)
  | aggregate input keys aggregates => do
    let plan ← input.resolve
    let schema ← aggregateSchema plan.schema keys aggregates
    let keys ← keys.mapM (·.resolve plan.schema)
    return .aggregate plan schema keys (← aggregates.mapM (·.resolve plan.schema))

def execute (p : Plan) : Except Error (List Batch) := do
  (← p.resolve).execute

end ColumnarQuery.Logical.Plan
