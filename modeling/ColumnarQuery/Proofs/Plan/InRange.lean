import ColumnarQuery.Proofs.Aggregate.GroupTable
import ColumnarQuery.Proofs.Plan.Meaning
import ColumnarQuery.Proofs.Source.Rows

/-!
# Execution within bounds

`Physical.Plan.run` executes a plan with its groups held in tables that are indexed. It leaves no list, and every batch that
it returns is well formed under the schema of the plan (`Physical.Plan.execute_wellFormed`).
-/

namespace ColumnarQuery

namespace Physical
variable {M : KeyMap} {keys : List Expr} {aggregates : List Aggregate}

def tablePrefix (keys : List Expr) (aggregates : List Aggregate) (n : Nat) (t : GroupTable M) (b : Batch) :
    Indexed (GroupTable M) := do
  let keyColumns ← Indexed.lift (keys.mapM (·.evaluate b))
  let inputColumns ← Indexed.lift (aggregates.mapM (·.input.evaluate b))
  t.addRows (aggregates.map (·.function.start)) keyColumns inputColumns n 0

def tableBatch (keys : List Expr) (aggregates : List Aggregate) (t : GroupTable M) (b : Batch) :
    Indexed (GroupTable M) :=
  tablePrefix keys aggregates b.rowCount t b

/-- The batches that a plan returns, where an aggregation keeps its groups in a table. -/
def Plan.run (M : KeyMap) : Plan → Indexed (List Batch)
  | scan source projection => Indexed.lift (scanChecked source projection)
  | project input schema exprs => do
    Indexed.lift ((← input.run M).mapM (projectBatch schema exprs))
  | filter input predicate => do
    Indexed.lift ((← input.run M).mapM (filterBatch predicate))
  | aggregate input schema keys aggregates => do
    let table ← (← input.run M).foldlM (tableBatch keys aggregates) (.empty : GroupTable M)
    return [← table.toBatch schema keys.length aggregates.length]

/-! ## Tables and groups -/

section Tables
variable {t : GroupTable M} {gs : Groups}

theorem agrees_tablePrefix (h : t.Represents keys.length aggregates.length gs) (n : Nat) (b : Batch) :
    Indexed.Agrees (GroupTable.Represents keys.length aggregates.length) (tablePrefix keys aggregates n t b)
      (groupPrefix keys aggregates n gs b) := by
  refine .lift_bind fun keyColumns hkeys => .lift_bind fun inputColumns hinputs => ?_
  exact h.agrees_addRows (length_of_mapM_eq_ok hkeys) (List.length_map _) (length_of_mapM_eq_ok hinputs) n 0

theorem agrees_foldlM_tableBatch (keys : List Expr) (aggregates : List Aggregate) (bs : List Batch) :
    Indexed.Agrees (GroupTable.Represents keys.length aggregates.length)
      (bs.foldlM (tableBatch keys aggregates) (.empty : GroupTable M)) (bs.foldlM (groupBatch keys aggregates) []) :=
  .foldlM (fun _ _ b h => agrees_tablePrefix h b.rowCount b) GroupTable.represents_empty

end Tables

/-- Tables are only indexed where they have an entry, and execution is the same with them. -/
theorem Plan.run_eq_lift (M : KeyMap) (q : Plan) : q.run M = Indexed.lift q.execute := by
  induction q with
  | scan source projection => rfl
  | project input schema exprs ih => rw [run, ih, Indexed.lift_bind, execute]
  | filter input predicate ih => rw [run, ih, Indexed.lift_bind, execute]
  | aggregate input schema keys aggregates ih =>
    rw [run, ih, execute, ← Indexed.agrees_eq_iff]
    refine .lift_bind fun ins _ => (agrees_foldlM_tableBatch keys aggregates ins).bind fun t gs h => ?_
    rw [h.toBatch_eq_lift]
    exact .lift_bind fun out _ => .ok rfl

end Physical

/-! ## Batches -/

/-- A batch has the schema, with one column for each field, of the type of the field and with a value per row. Its rows
can be read, and its columns can be found by name. -/
structure Batch.WellFormed (s : Schema) (b : Batch) : Prop where
  schema_eq : b.schema = s
  columns_size : b.columns.length = s.size
  column : ∀ i f, s.fields[i]? = some f → ∃ c, b.column i = .ok c ∧ c.type = f.type ∧ c.length = b.rowCount
  row : ∀ i < b.rowCount, ∃ row, b.row i = .ok row ∧ row.map Value.type = s.types
  columnNamed : ∀ f ∈ s.fields, ∃ i c, s.indexOf f.name = .ok i ∧ b.column i = .ok c ∧ b.columnNamed f.name = .ok c

theorem Batch.wellFormed (b : Batch) : b.WellFormed b.schema where
  schema_eq := rfl
  columns_size := by
    have h := congrArg List.length b.typed
    rwa [List.length_map, Schema.types, List.length_map] at h
  column := by
    intro i f hf
    have ht : b.schema.types[i]? = some f.type := by rw [Schema.types, List.getElem?_map, hf, Option.map_some]
    obtain ⟨c, hc, hct⟩ := exists_column ht
    exact ⟨c, hc, hct, (column_eq_ok hc).2⟩
  row := by
    intro i hi
    have hlt : i < b.rows.length := by rw [length_rows]; exact hi
    exact ⟨b.rows[i], row_eq_ok_iff.2 (List.getElem?_eq_getElem hlt), types_of_mem_rows (List.getElem_mem hlt)⟩
  columnNamed := by
    intro f hf
    have hfound : (b.schema.field? f.name).isSome = true := List.find?_isSome.2 ⟨f, hf, decide_eq_true rfl⟩
    obtain ⟨g, hg⟩ := Option.isSome_iff_exists.1 hfound
    obtain ⟨i, -, hi, hget⟩ := Schema.exists_indexOf hg
    have ht : b.schema.types[i]? = some g.type := by rw [Schema.types, List.getElem?_map, hget, Option.map_some]
    obtain ⟨c, hc, -⟩ := exists_column ht
    exact ⟨i, c, hi, hc, by rw [Batch.columnNamed, hi, ok_bind, hc]⟩

/-- Whatever a plan and its source are, execution only indexes what is there, and each batch that it returns is well
formed under the schema of the plan. -/
theorem Physical.Plan.execute_wellFormed (q : Plan) :
    (∀ M, q.run M = Indexed.lift q.execute) ∧ ∀ bs, q.execute = .ok bs → ∀ b ∈ bs, b.WellFormed q.schema := by
  refine ⟨fun M => run_eq_lift M q, fun bs hbs b hb => ?_⟩
  rw [← schema_of_mem_execute hbs hb]
  exact b.wellFormed

/-- The quantities of each item, under two equal names; and those of a column that is not there. -/
theorem Physical.Plan.execute_wellFormed_deliveries :
    let totals (i : Nat) : Plan := .aggregate (.scan (Table.deliveries 2).source [])
      ⟨[⟨"total", .text, false⟩, ⟨"total", .int .w64, true⟩]⟩ [.column 0] [⟨.sum, .column i⟩]
    (∃ b, (totals 1).execute = .ok [b] ∧ (totals 1).run .ofLists = Indexed.lift (.ok [b]) ∧
      b.WellFormed (totals 1).schema ∧ b.rows = [[.text "nut", .ofInt .w64 4], [.text "bolt", .ofInt .w64 2]]) ∧
    (totals 7).run .ofLists = Indexed.lift (.error (.indexOutOfBounds 7 2)) := by
  intro totals
  obtain ⟨hrun, hformed⟩ := execute_wellFormed (totals 1)
  refine ⟨⟨_, rfl, hrun .ofLists, hformed _ rfl _ (List.mem_singleton.2 rfl), rfl⟩, ?_⟩
  exact (execute_wellFormed (totals 7)).1 .ofLists

end ColumnarQuery
