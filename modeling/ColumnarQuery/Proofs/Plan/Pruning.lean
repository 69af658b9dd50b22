import ColumnarQuery.Proofs.Correspondence
import ColumnarQuery.Proofs.Plan.Resolution
import ColumnarQuery.Proofs.Source.Columns
import ColumnarQuery.Proofs.Source.Rows

/-!
# Reading fewer columns

An expression that reads selected columns only has the outcome on them that it has on all columns
(`Physical.Expr.ReadsAlike`). So a scan of some columns is a projection of a scan of all, and serves each projection that
reads no others as well (`Logical.Plan.scan_eq_project`).
-/

namespace ColumnarQuery

/-! ## Expressions -/

/-- An expression has on a selected batch the outcome that another one has on the stored batch. -/
def Physical.Expr.ReadsAlike (s : Schema) (names : List String) (e e' : Physical.Expr) : Prop :=
  ∀ b out, b.SelectedFrom s names out → e.evaluate out = e'.evaluate b

namespace Logical

namespace Expr

def columnNames : Expr → List String
  | column name => [name]
  | literal _ => []
  | binary _ left right => left.columnNames ++ right.columnNames
  | aggregate _ input => input.columnNames
  | renamed expr _ => expr.columnNames

variable {s : Schema} {names : List String} {e : Expr}

theorem fieldIn_select (hne : names ≠ []) (h : ∀ name ∈ e.columnNames, name ∈ names) :
    e.fieldIn (s.select names) = e.fieldIn s := by
  induction e with
  | column name =>
    have hname : name ∈ names := h name (List.mem_singleton.2 rfl)
    rw [fieldIn, fieldIn, Schema.fieldNamed, Schema.fieldNamed, Schema.field?_select hne, if_pos hname]
  | literal v => rfl
  | binary op left right ihl ihr =>
    obtain ⟨hl, hr⟩ := List.forall_mem_append.1 h
    rw [fieldIn, fieldIn, ihl hl, ihr hr]
  | aggregate function input ih => rw [fieldIn, fieldIn, ih h]
  | renamed expr name ih => rw [fieldIn, fieldIn, ih h]

/-- A name is found at other positions among selected columns, but there stands the same column. -/
theorem readsAlike_column {name : String} {i j : Nat} (hi : (s.select names).indexOf name = .ok i)
    (hj : s.indexOf name = .ok j) : Physical.Expr.ReadsAlike s names (.column i) (.column j) := by
  intro b out hout
  have hfirst := (Schema.indexOf_eq_ok_iff_firstAt.1 hi).name_eq
  rw [Schema.names, List.getElem?_map, Option.map_eq_some_iff] at hfirst
  obtain ⟨f, hf, rfl⟩ := hfirst
  obtain ⟨k, c, hk, hb, hc⟩ := hout.column i f hf
  rw [← Schema.indexOf_eq_ok_iff_firstAt, hj, Except.ok.injEq] at hk
  rw [Physical.Expr.evaluate, Physical.Expr.evaluate, hc, hk, hb]

theorem resolve_select (hne : names ≠ []) (h : ∀ name ∈ e.columnNames, name ∈ names) :
    Corresponds (Physical.Expr.ReadsAlike s names) (e.resolve (s.select names)) (e.resolve s) := by
  induction e with
  | column name =>
    have hname : name ∈ names := h name (List.mem_singleton.2 rfl)
    rw [resolve, resolve]
    by_cases hknown : name ∈ s.names
    · obtain ⟨j, hj⟩ := Schema.exists_indexOf_iff.2 hknown
      have hselected : name ∈ (s.select names).names := by simp [Schema.names_select hne, hname, hknown]
      obtain ⟨i, hi⟩ := Schema.exists_indexOf_iff.2 hselected
      rw [hi, hj]
      exact .ok (readsAlike_column hi hj)
    · have hselected : name ∉ (s.select names).names := by simp [Schema.names_select hne, hknown]
      rw [Schema.indexOf_of_not_mem hknown, Schema.indexOf_of_not_mem hselected]
      exact .error
  | literal v =>
    refine .ok fun b out hout => ?_
    rw [Physical.Expr.evaluate, Physical.Expr.evaluate, hout.rowCount_eq]
  | binary op left right ihl ihr =>
    obtain ⟨hl, hr⟩ := List.forall_mem_append.1 h
    refine (ihl hl).bind fun l l' hll => (ihr hr).bind fun r r' hrr => .ok fun b out hout => ?_
    rw [Physical.Expr.evaluate, Physical.Expr.evaluate, hll b out hout, hrr b out hout]
  | aggregate function input _ => exact .error
  | renamed expr name ih => exact ih h

theorem mapM_resolve_select {es : List Expr} (hne : names ≠ [])
    (h : ∀ e ∈ es, ∀ name ∈ e.columnNames, name ∈ names) :
    Corresponds (List.Forall₂ (Physical.Expr.ReadsAlike s names)) (es.mapM (·.resolve (s.select names)))
      (es.mapM (·.resolve s)) := by
  have hes : List.Forall₂ (fun e e' => e = e' ∧ ∀ name ∈ e.columnNames, name ∈ names) es es :=
    List.forall₂_same.2 fun e he => ⟨rfl, h e he⟩
  refine .mapM hes ?_
  rintro e _ ⟨rfl, he⟩
  exact resolve_select hne he

end Expr

/-- Expressions that read selected columns only make the same schema of the selection. -/
theorem projectionSchema_select {s : Schema} {names : List String} {es : List Expr} (hne : names ≠ [])
    (h : ∀ e ∈ es, ∀ name ∈ e.columnNames, name ∈ names) : projectionSchema (s.select names) es = projectionSchema s es := by
  rw [projectionSchema, projectionSchema, mapM_congr fun e he => Expr.fieldIn_select hne (h e he)]

end Logical

/-! ## Plans -/

theorem Physical.mapM_projectBatch_select {s schema : Schema} {names : List String} {es es' : List Physical.Expr}
    {bs out : List Batch} (hes : List.Forall₂ (Expr.ReadsAlike s names) es es')
    (hout : List.Forall₂ (Batch.SelectedFrom s names) bs out) :
    out.mapM (projectBatch schema es) = bs.mapM (projectBatch schema es') := by
  refine mapM_congr₂ (hout.flip.imp fun selected b hb => ?_)
  have hcolumns := mapM_congr₂ (hes.imp fun e e' h => h b selected hb)
  rw [projectBatch, projectBatch, hcolumns, Batch.SelectedFrom.rowCount_eq hb]

namespace Logical.Plan

section Scans
variable {t : Table} {path : String} {names : List String}

theorem resolve_project_scan (names : List String) (es : List Expr) :
    (project (scan path t.source names) es).resolve = (do
      let schema ← projectionSchema (t.schema.select names) es
      return .project (.scan t.source names) schema (← es.mapM (·.resolve (t.schema.select names)))) := rfl

theorem execute_project_scan (names : List String) (schema : Schema) (es : List Physical.Expr) :
    (Physical.Plan.project (.scan t.source names) schema es).execute =
      (do (← t.scan names).mapM (Physical.projectBatch schema es)) := by
  rw [Physical.Plan.execute, Physical.Plan.execute, Table.scanChecked_source]

/-- A projection of selected columns is one of all columns. -/
theorem corresponds_project_scan {es : List Expr} (hne : names ≠ [])
    (h : ∀ e ∈ es, ∀ name ∈ e.columnNames, name ∈ names) :
    Corresponds (fun q q' : Physical.Plan => q.schema = q'.schema ∧ q.execute = q'.execute)
      (project (scan path t.source names) es).resolve (project (scan path t.source []) es).resolve := by
  obtain ⟨out, hout, -⟩ := t.exists_scan names
  rw [resolve_project_scan, resolve_project_scan, projectionSchema_select hne h]
  refine (Corresponds.refl (fun s => (rfl : s = s)) _).bind ?_
  rintro schema _ rfl
  refine (Expr.mapM_resolve_select hne h).bind fun pes pes' hpes => .ok ⟨rfl, ?_⟩
  rw [execute_project_scan, execute_project_scan, hout]
  exact Physical.mapM_projectBatch_select hpes (Table.forall₂_scan hne hout)

theorem resolve_project_columns (path : String) (hne : names ≠ []) (hdistinct : names.Nodup)
    (hknown : ∀ name ∈ names, name ∈ t.schema.names) :
    ∃ positions, (t.schema.select names).fields.mapM (t.schema.indexOf ·.name) = .ok positions ∧
      (project (scan path t.source []) (names.map .column)).resolve =
        .ok (.project (.scan t.source []) (t.schema.select names) (Table.atPositions positions)) := by
  obtain ⟨positions, hpositions, -⟩ := t.schema.exists_positions names
  rw [← Schema.fields_select hne] at hpositions
  refine ⟨positions, hpositions, ?_⟩
  have hfields : (names.map Expr.column).mapM (·.fieldIn t.schema) = .ok (t.schema.select names).fields := by
    rw [List.mapM_map, Schema.fields_select hne]
    exact Schema.mapM_fieldNamed_eq_ok_iff.2 ⟨hknown, rfl⟩
  have hnames : (t.schema.select names).fields.map Field.name = names := by
    rw [← Schema.names, Schema.names_select hne, List.filter_eq_self.2 fun name h => decide_eq_true (hknown name h)]
  have hexprs : (names.map Expr.column).mapM (·.resolve t.schema) = .ok (Table.atPositions positions) := by
    rw [← hnames, List.mapM_map, List.mapM_map]
    exact mapM_eq_ok_map_of (fun f _ i hi => by
      show Physical.Expr.column <$> t.schema.indexOf f.name = _
      rw [hi, map_ok]) hpositions
  rw [resolve_project_scan, Schema.select_nil, projectionSchema, hfields, ok_bind, Schema.checked_select hne hdistinct,
    ok_bind, hexprs, ok_bind, pure_eq_ok]

/-- A scan of some columns of a table is a projection of a scan of all columns: the same schema, and the same batches. It
serves every projection that reads no other columns as well as the scan of all columns does: the plans have the same
schema or are refused with the same error, and return the same batches or fail with the same error. -/
theorem scan_eq_project (path : String) (t : Table) {names : List String} (hne : names ≠ []) (hdistinct : names.Nodup)
    (hknown : ∀ name ∈ names, name ∈ t.schema.names) :
    let pruned : Plan := .scan path t.source names
    let full : Plan := .scan path t.source []
    (∃ s, pruned.schema = .ok s ∧ (project full (names.map .column)).schema = .ok s) ∧
    (∃ q q' bs, pruned.resolve = .ok q ∧ (project full (names.map .column)).resolve = .ok q' ∧
      q.execute = .ok bs ∧ q'.execute = .ok bs) ∧
    ∀ es : List Expr, (∀ e ∈ es, ∀ name ∈ e.columnNames, name ∈ names) →
      (project pruned es).schema = (project full es).schema ∧
      Corresponds (fun q q' : Physical.Plan => q.schema = q'.schema ∧ q.execute = q'.execute)
        (project pruned es).resolve (project full es).resolve := by
  intro pruned full
  obtain ⟨positions, hpositions, hproject⟩ := resolve_project_columns path hne hdistinct hknown
  obtain ⟨bs, hbs, -⟩ := t.exists_scan names
  refine ⟨⟨_, rfl, schema_of_resolve hproject⟩, ⟨_, _, bs, rfl, hproject, (t.scanChecked_source names).trans hbs, ?_⟩,
    fun es hes => ⟨?_, corresponds_project_scan hne hes⟩⟩
  · rw [Schema.fields_select hne] at hpositions
    rw [execute_project_scan, ← hbs, Table.scan_eq_mapM_projectBatch (by simpa using hne) hpositions]
    rfl
  · exact projectionSchema_select hne hes

end Scans

/-- With two of three columns read, of which two have one name: both columns; a quotient; and an aggregate, for which
there is no place in a projection. -/
theorem scan_eq_project_itemsTwice :
    let names : List String := ["quantity", "item"]
    let pruned : Plan := .scan "deliveries" Table.itemsTwice.source names
    let full : Plan := .scan "deliveries" Table.itemsTwice.source []
    let share : Expr := .renamed (.binary (.arithmetic .div) (.literal (.ofInt .w64 6)) (.column "quantity")) "share"
    let total : Expr := .aggregate .sum (.column "quantity")
    (∃ q q' bs, pruned.resolve = .ok q ∧ (project full (names.map .column)).resolve = .ok q' ∧
      q.execute = .ok bs ∧ q'.execute = .ok bs) ∧
    (∀ e ∈ [share, total], (project pruned [.column "item", e]).schema = (project full [.column "item", e]).schema ∧
      Corresponds (fun q q' : Physical.Plan => q.schema = q'.schema ∧ q.execute = q'.execute)
        (project pruned [.column "item", e]).resolve (project full [.column "item", e]).resolve) ∧
    (project pruned [.column "item", share]).execute.map Batch.allRows =
      .ok [[.text "nut", .ofInt .w64 6], [.text "bolt", .ofInt .w64 3]] ∧
    (project pruned [.column "item", total]).execute = .error (.unsupported (.nestedAggregate "SUM(#quantity)")) := by
  intro names pruned full share total
  have hne : names ≠ [] := by decide
  obtain ⟨-, hsame, hserves⟩ := scan_eq_project "deliveries" Table.itemsTwice hne (by decide) (by decide)
  refine ⟨hsame, fun e he => hserves [.column "item", e] ?_, rfl, rfl⟩
  rcases List.mem_pair.1 he with rfl | rfl <;> decide

end Logical.Plan

end ColumnarQuery
