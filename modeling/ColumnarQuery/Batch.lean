import ColumnarQuery.Column.Filter
import ColumnarQuery.Schema.Select

/-!
# Batches of rows

A `Batch` carries the proofs that its columns fit its schema and its number of rows. `Batch.ofColumns` makes one or tells
what keeps the columns from being one, and `Batch.filter` keeps the rows at which a boolean column is true.
-/

namespace ColumnarQuery

/-- A number of rows under a schema, stored by column. A batch without columns still has rows. -/
structure Batch where
  schema : Schema
  columns : List Column
  rowCount : Nat
  typed : columns.map Column.type = schema.types
  sized : ∀ c ∈ columns, c.length = rowCount
deriving DecidableEq, Repr

namespace Batch

/-- Why a column cannot stand under a field in a batch of `rowCount` rows: its type is looked at first. -/
def misfit? (rowCount : Nat) (f : Field) (c : Column) : Option Error :=
  if c.type ≠ f.type then some (.typeMismatch f.type c.type)
  else if c.length ≠ rowCount then some (.lengthMismatch rowCount c.length)
  else none

theorem misfit?_eq_none_iff {rowCount : Nat} {f : Field} {c : Column} :
    misfit? rowCount f c = none ↔ c.type = f.type ∧ c.length = rowCount := by
  unfold misfit?
  split
  · simp_all
  · split <;> simp_all

theorem fits_of_findSome?_misfit? {rowCount : Nat} : ∀ {fs : List Field} {cs : List Column},
    cs.length = fs.length → (fs.zip cs).findSome? (fun p => misfit? rowCount p.1 p.2) = none →
      cs.map Column.type = fs.map Field.type ∧ ∀ c ∈ cs, c.length = rowCount
  | [], [], _, _ => by simp
  | f :: fs, c :: cs, hl, h => by
    simp only [List.length_cons, Nat.add_right_cancel_iff] at hl
    simp only [List.zip_cons_cons, List.findSome?_cons] at h
    split at h
    · simp at h
    · rename_i hm
      obtain ⟨ht, hn⟩ := misfit?_eq_none_iff.1 hm
      obtain ⟨hts, hns⟩ := fits_of_findSome?_misfit? hl h
      simpa [ht, hts, hn] using hns

/-- The batch of the given columns. Their number is looked at first, then the fields in order. -/
def ofColumns (schema : Schema) (columns : List Column) (rowCount : Nat) : Except Error Batch :=
  if hl : columns.length = schema.size then
    match h : (schema.fields.zip columns).findSome? (fun p => misfit? rowCount p.1 p.2) with
    | some e => .error e
    | none => .ok
      { schema, columns, rowCount
        typed := (fits_of_findSome?_misfit? hl h).1
        sized := (fits_of_findSome?_misfit? hl h).2 }
  else .error (.invalidSchema (.columnCount columns.length schema.size))

def ofColumnsInferred (schema : Schema) (columns : List Column) : Except Error Batch :=
  ofColumns schema columns ((columns.head?.map Column.length).getD 0)

def empty (schema : Schema) : Batch where
  schema := schema
  columns := schema.types.map Column.empty
  rowCount := 0
  typed := by simp [Function.comp_def, Column.empty, Column.type]
  sized := by simp [Column.empty, Column.length]

/-! ## Parts -/

def column (b : Batch) (i : Nat) : Except Error Column :=
  match b.columns[i]? with
  | some c => .ok c
  | none => .error (.indexOutOfBounds i b.columns.length)

def columnNamed (b : Batch) (name : String) : Except Error Column := do
  b.column (← b.schema.indexOf name)

def row (b : Batch) (i : Nat) : Except Error (List Value) :=
  if i < b.rowCount then b.columns.mapM (·.valueAt i) else .error (.indexOutOfBounds i b.rowCount)

/-! ## Filtering -/

/-- The rows at which the mask is true, in order. -/
def retain (mask : List Bool) (b : Batch) : Batch where
  schema := b.schema
  columns := b.columns.map (Column.retain mask)
  rowCount := (mask.take b.rowCount).count true
  typed := by
    rw [← b.typed, List.map_map]
    exact List.map_congr_left fun c _ => Column.type_retain mask c
  sized := by
    intro c hc
    obtain ⟨d, hd, rfl⟩ := List.mem_map.1 hc
    rw [Column.length_retain, b.sized d hd]

def filter (b : Batch) (selection : Column) : Except Error Batch :=
  if selection.length = b.rowCount then do
    return b.retain (← selection.mask)
  else .error (.lengthMismatch b.rowCount selection.length)

end Batch

end ColumnarQuery
