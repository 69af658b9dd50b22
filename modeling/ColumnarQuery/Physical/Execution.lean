import ColumnarQuery.Aggregate.Groups
import ColumnarQuery.Physical.Plan

/-!
# Executing a plan

`Physical.Plan.execute` returns the batches of a plan. A step works on one batch after another, but for an
aggregation, which reads them all and returns one batch. The first error ends the execution.
-/

namespace ColumnarQuery.Physical

/-- The batches of a scan, each of which must have the schema that the scan promises. -/
def scanChecked (source : Source) (projection : List String) : Except Error (List Batch) := do
  let schema := source.schema.select projection
  let batches ← source.scan projection
  match batches.find? (·.schema ≠ schema) with
  | some b => .error (.invalidSchema (.scannedBatch b.schema schema))
  | none => return batches

def projectBatch (schema : Schema) (exprs : List Expr) (b : Batch) : Except Error Batch := do
  Batch.ofColumns schema (← exprs.mapM (·.evaluate b)) b.rowCount

def filterBatch (predicate : Expr) (b : Batch) : Except Error Batch := do
  b.filter (← predicate.evaluate b)

/-- The groups after the rows of a batch. All columns are computed before a row is looked at. -/
def groupBatch (keys : List Expr) (aggregates : List Aggregate) (gs : Groups) (b : Batch) :
    Except Error Groups := do
  let keyColumns ← keys.mapM (·.evaluate b)
  let inputColumns ← aggregates.mapM (·.input.evaluate b)
  gs.addRows (aggregates.map (·.function.start)) keyColumns inputColumns b.rowCount 0

def Plan.execute : Plan → Except Error (List Batch)
  | scan source projection => scanChecked source projection
  | project input schema exprs => do
    (← input.execute).mapM (projectBatch schema exprs)
  | filter input predicate => do
    (← input.execute).mapM (filterBatch predicate)
  | aggregate input schema keys aggregates => do
    let groups ← (← input.execute).foldlM (groupBatch keys aggregates) []
    return [← groups.toBatch schema (keys.length + aggregates.length)]

end ColumnarQuery.Physical
