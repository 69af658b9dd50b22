import ColumnarQuery.Source.Basic

/-!
# Tables in memory

A `Table` has batches that all have its schema: given ones, or rows cut into batches of a size.
-/

namespace ColumnarQuery

/-- A list in pieces of `size` elements; the last may have fewer, but has one. -/
def chunks {α : Type} (size : Nat) (xs : List α) : List (List α) :=
  (List.range ((xs.length + size - 1) / size)).map fun i => (xs.drop (i * size)).take size

/-- The batch of the given rows. The first row of a wrong size is refused before any value is looked at, then the
columns are made in order. -/
def Batch.ofRows (schema : Schema) (rows : List (List Value)) : Except Error Batch :=
  match rows.find? (·.length ≠ schema.size) with
  | some row => .error (.invalidSchema (.rowSize row.length schema.size))
  | none => do
    let columns ← schema.fields.zipIdx.mapM fun (f, i) => Column.ofValues f.type (rows.filterMap (·[i]?))
    Batch.ofColumns schema columns rows.length

structure Table where
  schema : Schema
  batches : List Batch
  uniform : ∀ b ∈ batches, b.schema = schema

namespace Table

/-- The table of the given batches, each of which must have its schema. -/
def ofBatches (schema : Schema) (batches : List Batch) : Except Error Table :=
  match h : batches.find? (·.schema ≠ schema) with
  | some b => .error (.invalidSchema (.storedBatch b.schema schema))
  | none => .ok { schema, batches, uniform := by simpa using h }

/-- The table of the given rows, in batches of `batchSize` rows, or of one if that is zero. -/
def ofRows (schema : Schema) (rows : List (List Value)) (batchSize : Nat) : Except Error Table := do
  ofBatches schema (← (chunks (max batchSize 1) rows).mapM (Batch.ofRows schema))

/-- The batches with the columns of the selected fields. A field stands for the first column of its name. -/
def scan (t : Table) (names : List String) : Except Error (List Batch) :=
  if names.isEmpty then .ok t.batches
  else do
    let selected := t.schema.select names
    let positions ← selected.fields.mapM (t.schema.indexOf ·.name)
    t.batches.mapM fun b => do
      Batch.ofColumns selected (← positions.mapM b.column) b.rowCount

def source (t : Table) : Source where
  schema := t.schema
  scan := t.scan

end Table

end ColumnarQuery
