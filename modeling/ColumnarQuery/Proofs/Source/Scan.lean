import ColumnarQuery.Source.Table
import ColumnarQuery.Proofs.Plan.RowSteps
import ColumnarQuery.Proofs.Schema.Lookup

/-!
# Scanning tables in memory

* `Table.rows` : the rows of a table;
* `Table.exists_scan` : a scan always succeeds, with the selected columns of every row, batch by batch;
  `Table.scanChecked_source` : a plan finds no fault in it.
-/

namespace ColumnarQuery

namespace Table

def rows (t : Table) : List Row :=
  Batch.allRows t.batches

theorem length_of_mem_rows {t : Table} {row : Row} (h : row ∈ t.rows) : row.length = t.schema.size := by
  unfold rows Batch.allRows at h
  obtain ⟨b, hb, hrow⟩ := List.mem_flatMap.1 h
  rw [Batch.length_of_mem_rows hrow, t.uniform b hb]

def atPositions (positions : List Nat) : List Physical.Expr :=
  positions.map Physical.Expr.column

variable {t : Table} {names : List String} {positions : List Nat}

/-- The columns at the positions of selected fields are a projection. -/
theorem scan_eq_mapM_projectBatch (hne : names.isEmpty ≠ true)
    (h : (names.filterMap t.schema.field?).mapM (t.schema.indexOf ·.name) = .ok positions) :
    t.scan names = t.batches.mapM (Physical.projectBatch (t.schema.select names) (atPositions positions)) := by
  rw [scan, if_neg hne, Schema.select, if_neg hne]
  simp only [h, ok_bind]
  refine mapM_congr fun b _ => ?_
  rw [Physical.projectBatch, atPositions, List.mapM_map]
  rfl

theorem types_atPositions (hne : names.isEmpty ≠ true)
    (h : positions.map (t.schema.fields[·]?) = (names.filterMap t.schema.field?).map some) :
    (atPositions positions).map (·.type? t.schema.types) = (t.schema.select names).types.map some := by
  have htypes := congrArg (List.map (Option.map Field.type)) h
  rw [List.map_map, List.map_map] at htypes
  rw [Schema.select, if_neg hne]
  unfold Schema.types atPositions
  rw [List.map_map, List.map_map]
  refine Eq.trans (List.map_congr_left fun i _ => ?_) htypes
  rw [Function.comp_apply, Function.comp_apply, Physical.Expr.type?, List.getElem?_map]

/-- The projection of a row is its selected part. -/
theorem expandRows_atPositions (hne : names.isEmpty ≠ true)
    (h : ∀ row : Row, row.length = t.schema.size →
      positions.map (row[·]?) = (names.filterMap (t.schema.valueNamed? row)).map some) :
    expandRows (projectRow fun row => (atPositions positions).mapM (·.onRow row)) t.rows =
      .ok (t.rows.map (t.schema.selectRow names)) := by
  rw [expandRows_projectRow]
  refine mapM_eq_ok_map fun row hrow => ?_
  have hrow' := h row (length_of_mem_rows hrow)
  rw [Schema.selectRow, if_neg hne, atPositions, mapM_eq_ok_iff, List.forall₂_map_left_iff]
  rw [← List.forall₂_eq_eq_eq, List.forall₂_map_left_iff, List.forall₂_map_right_iff] at hrow'
  refine hrow'.imp fun i v hv => ?_
  rw [Physical.Expr.onRow, hv]

theorem exists_scan (t : Table) (names : List String) :
    ∃ bs, t.scan names = .ok bs ∧ (∀ b ∈ bs, b.schema = t.schema.select names) ∧ bs.length = t.batches.length ∧
      Batch.allRows bs = t.rows.map (t.schema.selectRow names) := by
  by_cases hnames : names.isEmpty = true
  · refine ⟨t.batches, ?_, ?_, rfl, ?_⟩
    · rw [scan, if_pos hnames]
    · rw [Schema.select, if_pos hnames]
      exact t.uniform
    · rw [Schema.selectRow_of_isEmpty hnames, List.map_id, rows]
  · obtain ⟨positions, hpositions, hfields, hrows⟩ := t.schema.exists_positions names
    have hstep := Physical.rowStep_project t.schema (t.schema.select names) (atPositions positions)
    obtain ⟨bs, hbs, hall⟩ := (hstep.exists_mapM_iff t.uniform).2
      ⟨fun _ => types_atPositions hnames hfields, expandRows_atPositions hnames hrows⟩
    refine ⟨bs, (scan_eq_mapM_projectBatch hnames hpositions).trans hbs, ?_, length_of_mapM_eq_ok hbs, hall⟩
    intro out hout
    obtain ⟨b, -, hb⟩ := exists_of_mem_mapM hbs hout
    exact Physical.schema_of_projectBatch hb

/-- A plan that scans a table in memory finds no fault in the batches. -/
theorem scanChecked_source (t : Table) (names : List String) : Physical.scanChecked t.source names = t.scan names := by
  obtain ⟨bs, hbs, hschema, -⟩ := t.exists_scan names
  unfold Physical.scanChecked
  simp only [source, hbs, ok_bind]
  split
  · rename_i b hb
    have hne := List.find?_some hb
    exact absurd (hschema b (List.mem_of_find?_eq_some hb)) (of_decide_eq_true hne)
  · rfl

theorem exists_scanChecked (t : Table) (names : List String) :
    ∃ bs, Physical.scanChecked t.source names = .ok bs ∧ (∀ b ∈ bs, b.schema = t.schema.select names) ∧
      bs.length = t.batches.length ∧ Batch.allRows bs = t.rows.map (t.schema.selectRow names) := by
  rw [scanChecked_source]
  exact t.exists_scan names

end Table

end ColumnarQuery
