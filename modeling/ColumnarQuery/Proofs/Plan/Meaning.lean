import ColumnarQuery.Proofs.Plan.GroupSteps
import ColumnarQuery.Proofs.Plan.RowSteps
import ColumnarQuery.Proofs.Source.Scan

/-!
# Plans row by row

`Physical.Plan.onRows` are the rows of a plan over given rows, without batches. Over a table in memory a plan succeeds
exactly if it fits and its rows can be computed, and returns these rows (`Physical.Plan.execute_iff`).
-/

namespace ColumnarQuery.Physical.Plan

def source : Plan → Source
  | scan source _ => source
  | project input _ _ | filter input _ | aggregate input _ _ _ => input.source

/-- The rows of a plan over the rows of its source. -/
def onRows (stored : List Row) : Plan → Except Error (List Row)
  | scan source projection => .ok (stored.map (source.schema.selectRow projection))
  | project input _ exprs => do
    expandRows (projectRow fun row => exprs.mapM (·.onRow row)) (← input.onRows stored)
  | filter input predicate => do
    expandRows (filterRow predicate.onRow) (← input.onRows stored)
  | aggregate input _ keys aggregates => do
    groupRows (fun row => keys.mapM (·.onRow row)) (aggregates.map fun a => (a.function, a.input.onRow))
      (← input.onRows stored)

/-- The plan returns a batch, given whether its source has one. -/
def Batched (stored : Prop) : Plan → Prop
  | scan _ _ => stored
  | project input _ _ | filter input _ => input.Batched stored
  | aggregate _ _ _ _ => True

/-- At each step that sees a batch every operator accepts its operands, and a selection has a boolean predicate. -/
def Fits (stored : Prop) : Plan → Prop
  | scan _ _ => True
  | project input _ exprs =>
    input.Fits stored ∧ (input.Batched stored → ∀ e ∈ exprs, ∃ t, e.type? input.schema.types = some t)
  | filter input predicate =>
    input.Fits stored ∧ (input.Batched stored → predicate.type? input.schema.types = some .boolean)
  | aggregate input _ keys aggregates =>
    input.Fits stored ∧ (input.Batched stored → AggregationFits input.schema keys aggregates)

/-- The columns of each step are found in the schema before it, and its schema tells the types of its fields. -/
def Consistent : Plan → Prop
  | scan _ _ => True
  | project input schema exprs =>
    input.Consistent ∧ exprs.map (·.fieldType? input.schema.types) = schema.types.map some
  | filter input predicate =>
    input.Consistent ∧ ∃ t, predicate.fieldType? input.schema.types = some t
  | aggregate input schema keys aggregates =>
    input.Consistent ∧ ∃ keyTypes specs, AggregationFields input.schema keys aggregates keyTypes specs ∧
      schema.types = keyTypes ++ specs.map fun p => p.1.resultType p.2

/-! ## Schemas and numbers of batches -/

theorem schema_of_mem_execute {q : Plan} {bs : List Batch} {b : Batch} (h : q.execute = .ok bs) (hb : b ∈ bs) :
    b.schema = q.schema := by
  induction q generalizing bs b with
  | scan source projection =>
    rw [execute, scanChecked] at h
    obtain ⟨bs', -, h⟩ := bind_eq_ok_iff.1 h
    split at h
    · cases h
    · rename_i hnone
      cases h
      have hsame := List.find?_eq_none.1 hnone b hb
      show b.schema = source.schema.select projection
      simpa using hsame
  | project input schema exprs ih =>
    obtain ⟨ins, -, hbs⟩ := bind_eq_ok_iff.1 h
    obtain ⟨b', -, hb'⟩ := exists_of_mem_mapM hbs hb
    exact schema_of_projectBatch hb'
  | filter input predicate ih =>
    obtain ⟨ins, hins, hbs⟩ := bind_eq_ok_iff.1 h
    obtain ⟨b', hmem, hb'⟩ := exists_of_mem_mapM hbs hb
    rw [schema_of_filterBatch hb', ih hins hmem]
    rfl
  | aggregate input schema keys aggregates ih =>
    obtain ⟨ins, -, hgroups⟩ := bind_eq_ok_iff.1 h
    obtain ⟨gs, -, hbatch⟩ := bind_eq_ok_iff.1 hgroups
    obtain ⟨out, hout, hbs⟩ := bind_eq_ok_iff.1 hbatch
    cases hbs
    rw [List.mem_singleton.1 hb]
    exact Groups.schema_of_toBatch hout

variable {t : Table}

/-- A step other than an aggregation returns as many batches as it sees. -/
theorem ne_nil_iff_batched {q : Plan} {bs : List Batch} (hq : q.source = t.source) (h : q.execute = .ok bs) :
    bs ≠ [] ↔ q.Batched (t.batches ≠ []) := by
  have hmap : ∀ {step : Batch → Except Error Batch} {ins outs : List Batch}, ins.mapM step = .ok outs →
      (outs ≠ [] ↔ ins ≠ []) := by
    intro step ins outs hm
    rw [← List.length_pos_iff, ← List.length_pos_iff, length_of_mapM_eq_ok hm]
  induction q generalizing bs with
  | scan source projection =>
    change source = t.source at hq
    subst hq
    obtain ⟨bs', hbs', -, hlen, -⟩ := t.exists_scanChecked projection
    rw [execute, hbs', Except.ok.injEq] at h
    rw [Batched, ← List.length_pos_iff, ← List.length_pos_iff, ← h, hlen]
  | project input schema exprs ih =>
    obtain ⟨ins, hins, hbs⟩ := bind_eq_ok_iff.1 h
    exact (hmap hbs).trans (ih hq hins)
  | filter input predicate ih =>
    obtain ⟨ins, hins, hbs⟩ := bind_eq_ok_iff.1 h
    exact (hmap hbs).trans (ih hq hins)
  | aggregate input schema keys aggregates ih =>
    obtain ⟨ins, -, hgroups⟩ := bind_eq_ok_iff.1 h
    obtain ⟨gs, -, hbatch⟩ := bind_eq_ok_iff.1 hgroups
    obtain ⟨out, -, hbs⟩ := bind_eq_ok_iff.1 hbatch
    cases hbs
    simp [Batched]

/-! ## Rows -/

/-- A step behind others: it succeeds exactly if the others do, and it does on their batches. -/
theorem step_iff {x : Except Error (List Batch)} {y : Except Error (List Row)} {fits batched stepFits : Prop}
    {step : List Batch → Except Error (List Batch)} {onRows : List Row → Except Error (List Row)}
    (hx : ∀ {rows}, (∃ bs, x = .ok bs ∧ Batch.allRows bs = rows) ↔ fits ∧ y = .ok rows)
    (hb : ∀ {bs}, x = .ok bs → (bs ≠ [] ↔ batched))
    (hstep : ∀ {ins}, x = .ok ins → ∀ {rows}, (∃ bs, step ins = .ok bs ∧ Batch.allRows bs = rows) ↔
      (ins ≠ [] → stepFits) ∧ onRows (Batch.allRows ins) = .ok rows) {rows : List Row} :
    (∃ bs, x >>= step = .ok bs ∧ Batch.allRows bs = rows) ↔
      (fits ∧ (batched → stepFits)) ∧ y >>= onRows = .ok rows := by
  constructor
  · intro h
    obtain ⟨bs, hbs, hrows⟩ := h
    obtain ⟨ins, hins, hbs⟩ := bind_eq_ok_iff.1 hbs
    obtain ⟨hfits, hy⟩ := hx.1 ⟨ins, hins, rfl⟩
    obtain ⟨hstepFits, hon⟩ := (hstep hins).1 ⟨bs, hbs, hrows⟩
    refine ⟨⟨hfits, fun h => hstepFits ((hb hins).2 h)⟩, ?_⟩
    rw [hy, ok_bind, hon]
  · intro h
    obtain ⟨⟨hfits, hstepFits⟩, hrows⟩ := h
    obtain ⟨mid, hy, hon⟩ := bind_eq_ok_iff.1 hrows
    obtain ⟨ins, hins, rfl⟩ := hx.2 ⟨hfits, hy⟩
    obtain ⟨bs, hbs, hrows⟩ := (hstep hins).2 ⟨fun h => hstepFits ((hb hins).1 h), hon⟩
    exact ⟨bs, by rw [hins, ok_bind, hbs], hrows⟩

theorem map_type?_eq_iff {types ts : List DataType} {exprs : List Expr}
    (h : exprs.map (·.fieldType? types) = ts.map some) :
    exprs.map (·.type? types) = ts.map some ↔ ∀ e ∈ exprs, ∃ t, e.type? types = some t := by
  constructor
  · exact exists_of_map_eq_map_some
  · intro hall
    rw [← h]
    refine List.map_congr_left fun e he => ?_
    obtain ⟨t, ht⟩ := hall e he
    rw [ht, Expr.fieldType?_of_type? ht]

/-- Over a table in memory a plan succeeds exactly if it fits and its rows can be computed, which it then returns. -/
theorem execute_iff {q : Plan} (hq : q.source = t.source) (hc : q.Consistent) {rows : List Row} :
    (∃ bs, q.execute = .ok bs ∧ Batch.allRows bs = rows) ↔
      q.Fits (t.batches ≠ []) ∧ q.onRows t.rows = .ok rows := by
  induction q generalizing rows with
  | scan source projection =>
    change source = t.source at hq
    subst hq
    obtain ⟨bs, hbs, -, -, hrows⟩ := t.exists_scanChecked projection
    rw [execute, hbs, Fits, onRows, true_and]
    constructor
    · intro h
      obtain ⟨bs', hbs', rfl⟩ := h
      cases hbs'
      rw [hrows]
      rfl
    · intro h
      cases h
      exact ⟨bs, rfl, hrows⟩
  | project input schema exprs ih =>
    refine step_iff (ih hq hc.1) (ne_nil_iff_batched hq) fun hins rows => ?_
    rw [← map_type?_eq_iff hc.2]
    exact (rowStep_project input.schema schema exprs).exists_mapM_iff fun b hb => schema_of_mem_execute hins hb
  | filter input predicate ih =>
    refine step_iff (ih hq hc.1) (ne_nil_iff_batched hq) fun hins rows => ?_
    exact (rowStep_filter input.schema predicate).exists_mapM_iff fun b hb => schema_of_mem_execute hins hb
  | aggregate input schema keys aggregates ih =>
    obtain ⟨hinput, keyTypes, specs, hfields, hschema⟩ := hc
    refine step_iff (ih hq hinput) (ne_nil_iff_batched hq) fun hins rows => ?_
    rw [← exists_aggregation_iff hfields hschema fun b hb => schema_of_mem_execute hins hb]
    constructor
    · intro h
      obtain ⟨bs, hbs, rfl⟩ := h
      obtain ⟨gs, hgs, hbs⟩ := bind_eq_ok_iff.1 hbs
      obtain ⟨out, hout, hbs⟩ := bind_eq_ok_iff.1 hbs
      cases hbs
      exact ⟨gs, out, hgs, hout, (List.append_nil _).symm⟩
    · intro h
      obtain ⟨gs, out, hgs, hout, rfl⟩ := h
      exact ⟨[out], by rw [hgs, ok_bind, hout, ok_bind, pure_eq_ok], List.append_nil _⟩

end ColumnarQuery.Physical.Plan
