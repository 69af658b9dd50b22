import ColumnarQuery.Batch

/-!
# Sources of rows

* `Source` : what a scan reads, a schema and the batches for each list of column names; an empty list asks for every
  column;
* `Source.fixed`, `Source.failing` : sources that answer each scan alike.
-/

namespace ColumnarQuery

/-- A provider of batches. Nothing is assumed of what `scan` returns. -/
structure Source where
  schema : Schema
  scan : List String → Except Error (List Batch)

namespace Source

def fixed (schema : Schema) (batches : List Batch) : Source where
  schema := schema
  scan _ := .ok batches

def failing (schema : Schema) (reason : String) : Source where
  schema := schema
  scan _ := .error (.unsupported (.source reason))

end Source

end ColumnarQuery
