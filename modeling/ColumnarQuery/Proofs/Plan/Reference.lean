import ColumnarQuery.Proofs.Plan.Resolution
import ColumnarQuery.Proofs.Source.Rows

/-!
# The rows of a plan by column names

`Logical.Plan.reference` are the rows of a plan over stored rows, step by step and row by row, with columns found by name.
What a plan returns over a table in memory are these rows (`Logical.Plan.execute_refines_reference`).
-/

namespace ColumnarQuery.Logical

/-- The value of an expression on one row of a schema. A name stands for the first column that has it, and another name
for an expression changes nothing. -/
def Expr.onRow (s : Schema) (row : Row) : Expr → Except Error Value
  | column name =>
    match s.valueNamed? row name with
    | some v => .ok v
    | none => .error (.columnNotFound name)
  | literal v => .ok v
  | binary op left right => do
    Value.apply op (← left.onRow s row) (← right.onRow s row)
  | aggregate function input => .error (.unsupported (.nestedAggregate (aggregate function input).render))
  | renamed expr _ => expr.onRow s row

/-- The rows of a plan over the rows of its source. -/
def Plan.reference (stored : List Row) : Plan → Except Error (List Row)
  | scan _ source projection => .ok (stored.map (source.schema.selectRow projection))
  | project input exprs => do
    let s ← input.schema
    (← input.reference stored).mapM fun row => exprs.mapM (·.onRow s row)
  | filter input predicate => do
    let s ← input.schema
    expandRows (filterRow (predicate.onRow s)) (← input.reference stored)
  | aggregate input keys aggregates => do
    let s ← input.schema
    groupRows (fun row => keys.mapM (·.onRow s row)) (aggregates.map fun a => (a.function, a.input.onRow s))
      (← input.reference stored)

/-! ## Expressions -/

section Expressions
variable {s : Schema} {row : Row}

theorem Expr.onRow_of_resolve {e : Expr} {pe : Physical.Expr} (h : e.resolve s = .ok pe) (v : Value) :
    pe.onRow row = .ok v ↔ e.onRow s row = .ok v := by
  induction e generalizing pe v with
  | column name =>
    obtain ⟨i, hi, rfl⟩ := map_eq_ok_iff.1 h
    rw [onRow, Schema.valueNamed?_of_indexOf hi, Physical.Expr.onRow]
    cases row[i]? <;> simp
  | literal w =>
    cases h
    rfl
  | binary op left right ihl ihr =>
    obtain ⟨l, r, hl, hr, rfl⟩ := resolve_binary_eq_ok h
    simp only [onRow, Physical.Expr.onRow, bind_eq_ok_iff, ihl hl, ihr hr]
  | aggregate function input => cases h
  | renamed expr name ih =>
    rw [onRow]
    exact ih h v

theorem mapM_onRow_of_resolve {es : List Expr} {pes : List Physical.Expr} (h : es.mapM (·.resolve s) = .ok pes)
    (values : Row) : pes.mapM (·.onRow row) = .ok values ↔ es.mapM (·.onRow s row) = .ok values :=
  mapM_eq_ok_congr₂ ((mapM_eq_ok_iff.1 h).flip.imp fun _ _ hpe v => Expr.onRow_of_resolve hpe v)

end Expressions

/-! ## Steps -/

theorem expandRows_filterRow_congr {p r : Row → Except Error Value} {rows kept : List Row}
    (h : ∀ row v, p row = .ok v ↔ r row = .ok v) :
    expandRows (filterRow p) rows = .ok kept ↔ expandRows (filterRow r) rows = .ok kept := by
  simp only [expandRows_filterRow_eq_ok_iff, mapM_eq_ok_congr fun row _ v => h row v]

theorem groupRows_congr {key key' : Row → Except Error Row}
    {aggregates aggregates' : List (AggregateFunction × (Row → Except Error Value))} {rows out : List Row}
    (hk : ∀ row k, key row = .ok k ↔ key' row = .ok k)
    (ha : List.Forall₂ (fun a a' => a.1 = a'.1 ∧ ∀ row v, a.2 row = .ok v ↔ a'.2 row = .ok v) aggregates aggregates') :
    groupRows key aggregates rows = .ok out ↔ groupRows key' aggregates' rows = .ok out := by
  have hanswers : ∀ (group : List Row) (answers : Row),
      (aggregates.mapM fun a => do a.1.answer (← group.mapM a.2)) = .ok answers ↔
        (aggregates'.mapM fun a => do a.1.answer (← group.mapM a.2)) = .ok answers := by
    intro group answers
    refine mapM_eq_ok_congr₂ (ha.imp fun a a' haa v => ?_)
    rw [haa.1, bind_eq_ok_iff, bind_eq_ok_iff]
    simp only [mapM_eq_ok_congr fun row _ v => haa.2 row v]
  unfold groupRows
  simp only [bind_eq_ok_iff, mapM_eq_ok_congr fun row _ k => hk row k]
  refine exists_congr fun keys => and_congr_right fun _ => mapM_eq_ok_congr fun k _ row => ?_
  simp only [bind_eq_ok_iff, hanswers]

namespace Plan

/-- Finding the columns of a plan keeps its rows. -/
theorem reference_of_onRows {p : Plan} {q : Physical.Plan} {stored rows : List Row} (h : p.resolve = .ok q) :
    q.onRows stored = .ok rows ↔ p.reference stored = .ok rows := by
  induction p generalizing q rows with
  | scan path source projection =>
    cases h
    rfl
  | project input exprs ih =>
    obtain ⟨plan, schema, pexprs, hplan, -, hpexprs, rfl⟩ := resolve_project_eq_ok h
    rw [reference, schema_of_resolve hplan, ok_bind, Physical.Plan.onRows, bind_eq_ok_iff, bind_eq_ok_iff]
    simp only [ih hplan, expandRows_projectRow,
      mapM_eq_ok_congr fun row _ values => mapM_onRow_of_resolve hpexprs values]
  | filter input predicate ih =>
    obtain ⟨plan, pe, hplan, hpe, rfl⟩ := resolve_filter_eq_ok h
    rw [reference, schema_of_resolve hplan, ok_bind, Physical.Plan.onRows, bind_eq_ok_iff, bind_eq_ok_iff]
    simp only [ih hplan, expandRows_filterRow_congr fun row v => Expr.onRow_of_resolve hpe v]
  | aggregate input keys aggregates ih =>
    obtain ⟨plan, schema, pkeys, paggregates, hplan, -, hpkeys, hpaggregates, rfl⟩ := resolve_aggregate_eq_ok h
    have haggregates : List.Forall₂ (fun a a' => a.1 = a'.1 ∧ ∀ row v, a.2 row = .ok v ↔ a'.2 row = .ok v)
        (paggregates.map fun a => (a.function, fun row => a.input.onRow row))
        (aggregates.map fun a => (a.function, fun row => a.input.onRow plan.schema row)) := by
      rw [List.forall₂_map_left_iff, List.forall₂_map_right_iff]
      refine (mapM_eq_ok_iff.1 hpaggregates).flip.imp fun pa a hpa => ?_
      obtain ⟨pe, hpe, rfl⟩ := map_eq_ok_iff.1 hpa
      exact ⟨rfl, fun row v => Expr.onRow_of_resolve hpe v⟩
    rw [reference, schema_of_resolve hplan, ok_bind, Physical.Plan.onRows, bind_eq_ok_iff, bind_eq_ok_iff]
    simp only [ih hplan, groupRows_congr (fun row k => mapM_onRow_of_resolve hpkeys k) haggregates]

/-- The batches that a plan returns over a table in memory hold the rows of the plan, in order. -/
theorem execute_refines_reference {p : Plan} {t : Table} {bs : List Batch} (h : (p.reading t.source).execute = .ok bs) :
    (p.reading t.source).reference t.rows = .ok (Batch.allRows bs) := by
  obtain ⟨q, hq, hbs⟩ := bind_eq_ok_iff.1 h
  have hrows := (Physical.Plan.execute_iff (source_of_resolve_reading hq) (consistent_of_resolve hq)).1 ⟨bs, hbs, rfl⟩
  exact (reference_of_onRows hq).1 hrows.2

/-- The quantities of three deliveries in two batches. -/
theorem execute_refines_reference_quantities :
    ∃ bs, (quantities.reading (Table.deliveries 2).source).execute = .ok bs ∧
      (quantities.reading (Table.deliveries 2).source).reference (Table.deliveries 2).rows = .ok (Batch.allRows bs) ∧
      Batch.allRows bs =
        [[.text "nut", .ofInt .w64 4, .ofInt .w64 2], [.text "bolt", .ofInt .w64 2, .ofInt .w64 1]] := by
  exact ⟨_, rfl, execute_refines_reference rfl, rfl⟩

end Plan

end ColumnarQuery.Logical
