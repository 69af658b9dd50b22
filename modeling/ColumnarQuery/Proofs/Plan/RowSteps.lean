import ColumnarQuery.Physical.Execution
import ColumnarQuery.Proofs.Expr.Evaluation

/-!
# Steps that work row by row

A `RowStep` on batches of one schema succeeds exactly if the schema fits it and its function succeeds on each row, and
returns the rows of the function. Projections and selections are such steps, on one batch and on many
(`RowStep.exists_mapM_iff`).
-/

namespace ColumnarQuery

/-- The rows that a function makes of each row, one after another. -/
def expandRows (f : Row → Except Error (List Row)) (rows : List Row) : Except Error (List Row) :=
  List.flatten <$> rows.mapM f

def projectRow (f : Row → Except Error Row) (row : Row) : Except Error (List Row) := do
  return [← f row]

def filterRow (predicate : Row → Except Error Value) (row : Row) : Except Error (List Row) := do
  return if (← predicate row) = .boolean true then [row] else []

/-! ## Rows one after another -/

section Expand
variable {f : Row → Except Error (List Row)}

@[simp] theorem expandRows_nil : expandRows f [] = .ok [] := rfl

theorem expandRows_append_eq_ok_iff {xs ys rows : List Row} :
    expandRows f (xs ++ ys) = .ok rows ↔
      ∃ us vs, expandRows f xs = .ok us ∧ expandRows f ys = .ok vs ∧ rows = us ++ vs := by
  unfold expandRows
  constructor
  · intro h
    obtain ⟨pieces, hpieces, rfl⟩ := map_eq_ok_iff.1 h
    obtain ⟨us, vs, hus, hvs, rfl⟩ := mapM_append_eq_ok_iff.1 hpieces
    exact ⟨us.flatten, vs.flatten, by rw [hus, map_ok], by rw [hvs, map_ok], List.flatten_append⟩
  · intro h
    obtain ⟨_, _, hxs, hys, rfl⟩ := h
    obtain ⟨us, hus, rfl⟩ := map_eq_ok_iff.1 hxs
    obtain ⟨vs, hvs, rfl⟩ := map_eq_ok_iff.1 hys
    rw [mapM_append_eq_ok_iff.2 ⟨us, vs, hus, hvs, rfl⟩, map_ok, List.flatten_append]

theorem expandRows_projectRow (f : Row → Except Error Row) (rows : List Row) :
    expandRows (projectRow f) rows = rows.mapM f := by
  unfold expandRows
  induction rows with
  | nil => rfl
  | cons row rows ih =>
    rw [List.mapM_cons, List.mapM_cons, ← ih, projectRow]
    cases f row with
    | error e => rfl
    | ok v => cases rows.mapM (projectRow f) <;> rfl

theorem expandRows_filterRow_singleton (predicate : Row → Except Error Value) (row : Row) :
    expandRows (filterRow predicate) [row] = (fun v => if v = .boolean true then [row] else []) <$> predicate row := by
  unfold expandRows filterRow
  rw [List.mapM_cons, List.mapM_nil]
  cases predicate row with
  | error e => rfl
  | ok v => simp

/-- The rows that are kept are those where a mask of the predicate's values is true. -/
theorem expandRows_filterRow_eq_ok_iff {predicate : Row → Except Error Value} {rows kept : List Row} :
    expandRows (filterRow predicate) rows = .ok kept ↔
      ∃ vs, rows.mapM predicate = .ok vs ∧ kept = retain (vs.map (· = .boolean true)) rows := by
  induction rows generalizing kept with
  | nil =>
    rw [expandRows_nil, List.mapM_nil, Except.ok.injEq, eq_comm]
    constructor
    · intro h
      exact ⟨[], rfl, h⟩
    · intro h
      obtain ⟨vs, hvs, h⟩ := h
      cases hvs
      exact h
  | cons row rows ih =>
    rw [show row :: rows = [row] ++ rows from rfl, expandRows_append_eq_ok_iff]
    simp only [ih, List.mapM_append, List.mapM_cons, List.mapM_nil, pure_eq_ok, ok_bind]
    constructor
    · intro h
      obtain ⟨us, _, hus, ⟨vs, hvs, rfl⟩, rfl⟩ := h
      rw [expandRows_filterRow_singleton] at hus
      obtain ⟨v, hv, rfl⟩ := map_eq_ok_iff.1 hus
      refine ⟨v :: vs, by rw [hv, ok_bind, ok_bind, hvs, ok_bind]; rfl, ?_⟩
      by_cases hb : v = .boolean true <;> simp [retain, hb]
    · intro h
      obtain ⟨ws, hws, rfl⟩ := h
      obtain ⟨us, hus, hws⟩ := bind_eq_ok_iff.1 hws
      obtain ⟨v, hv, hus⟩ := bind_eq_ok_iff.1 hus
      obtain ⟨vs, hvs, hws⟩ := bind_eq_ok_iff.1 hws
      cases hus
      cases hws
      refine ⟨if v = .boolean true then [row] else [], _, ?_, ⟨vs, hvs, rfl⟩, ?_⟩
      · rw [expandRows_filterRow_singleton, hv, map_ok]
      · by_cases hb : v = .boolean true <;> simp [retain, hb]

end Expand

/-! ## Steps on batches -/

/-- A step on the batches of a schema that looks at the schema once and then at one row after another. -/
structure RowStep (s : Schema) (fits : Prop) (f : Row → Except Error (List Row)) (step : Batch → Except Error Batch) :
    Prop where
  sound : ∀ {b out}, b.schema = s → step b = .ok out → fits ∧ expandRows f b.rows = .ok out.rows
  complete : ∀ {b rows}, b.schema = s → fits → expandRows f b.rows = .ok rows → ∃ out, step b = .ok out

/-- Where a list of rows is cut into batches makes no difference, but that without a batch the schema is not looked
at. -/
theorem RowStep.exists_mapM_iff {s : Schema} {fits : Prop} {f : Row → Except Error (List Row)}
    {step : Batch → Except Error Batch} (h : RowStep s fits f step) {bs : List Batch} (hs : ∀ b ∈ bs, b.schema = s)
    {rows : List Row} :
    (∃ outs, bs.mapM step = .ok outs ∧ Batch.allRows outs = rows) ↔
      (bs ≠ [] → fits) ∧ expandRows f (Batch.allRows bs) = .ok rows := by
  induction bs generalizing rows with
  | nil => simp
  | cons b bs ih =>
    rw [List.forall_mem_cons] at hs
    have htail := @ih hs.2
    rw [Batch.allRows_cons, expandRows_append_eq_ok_iff]
    constructor
    · intro hall
      obtain ⟨_, houts, rfl⟩ := hall
      rw [List.mapM_cons, bind_eq_ok_iff] at houts
      obtain ⟨out, hout, houts⟩ := houts
      obtain ⟨outs, hrest, houts⟩ := bind_eq_ok_iff.1 houts
      cases houts
      obtain ⟨hfits, hrows⟩ := h.sound hs.1 hout
      exact ⟨fun _ => hfits, out.rows, _, hrows, (htail.1 ⟨outs, hrest, rfl⟩).2, rfl⟩
    · intro hall
      obtain ⟨hfits, us, vs, hus, hvs, rfl⟩ := hall
      have hfits := hfits (List.cons_ne_nil b bs)
      obtain ⟨out, hout⟩ := h.complete hs.1 hfits hus
      obtain ⟨outs, houts, rfl⟩ := htail.2 ⟨fun _ => hfits, hvs⟩
      have hrows := (h.sound hs.1 hout).2
      rw [hus, Except.ok.injEq] at hrows
      refine ⟨out :: outs, ?_, ?_⟩
      · rw [List.mapM_cons, hout, ok_bind, houts, ok_bind, pure_eq_ok]
      · rw [Batch.allRows_cons, hrows]

theorem Value.boolean?_eq_some_iff {v : Value} {b : Bool} : v.boolean? = some b ↔ v = .boolean b := by
  cases v <;> simp [boolean?]

namespace Physical

theorem schema_of_projectBatch {schema : Schema} {exprs : List Expr} {b out : Batch}
    (h : projectBatch schema exprs b = .ok out) : out.schema = schema := by
  unfold projectBatch at h
  obtain ⟨columns, -, h⟩ := bind_eq_ok_iff.1 h
  exact (Batch.ofColumns_eq_ok_iff.1 h).1

theorem schema_of_filterBatch {predicate : Expr} {b out : Batch} (h : filterBatch predicate b = .ok out) :
    out.schema = b.schema := by
  unfold filterBatch Batch.filter at h
  obtain ⟨c, -, h⟩ := bind_eq_ok_iff.1 h
  split at h
  · obtain ⟨mask, -, h⟩ := bind_eq_ok_iff.1 h
    cases h
    rfl
  · cases h

/-- A projection fits if every operator accepts its operands and the schema tells the types of the answers. -/
theorem rowStep_project (s schema : Schema) (exprs : List Expr) :
    RowStep s (exprs.map (·.type? s.types) = schema.types.map some)
      (projectRow fun row => exprs.mapM (·.onRow row)) (projectBatch schema exprs) where
  sound := by
    intro b out hs h
    subst hs
    unfold projectBatch at h
    obtain ⟨columns, hcolumns, h⟩ := bind_eq_ok_iff.1 h
    obtain ⟨hts, -, hrows⟩ := Expr.mapM_evaluate_eq_ok hcolumns
    obtain ⟨rfl, rfl, hn⟩ := Batch.ofColumns_eq_ok_iff.1 h
    refine ⟨?_, ?_⟩
    · rw [hts, ← out.typed, List.map_map, Function.comp_def]
    · rw [expandRows_projectRow, hrows, Batch.rows, hn]
  complete := by
    intro b rows hs hfits h
    subst hs
    rw [expandRows_projectRow] at h
    obtain ⟨columns, hcolumns⟩ := Expr.exists_mapM_evaluate (exists_of_map_eq_map_some hfits) h
    obtain ⟨hcts, hlens, -⟩ := Expr.mapM_evaluate_eq_ok hcolumns
    have htypes : columns.map Column.type = schema.types := by
      have hsome : (columns.map Column.type).map some = schema.types.map some := by
        rw [← hfits, hcts, List.map_map, Function.comp_def]
      exact List.map_injective_iff.2 (fun _ _ => Option.some.inj) hsome
    obtain ⟨out, hout⟩ := Batch.exists_ofColumns htypes hlens
    exact ⟨out, by rw [projectBatch, hcolumns, ok_bind, hout]⟩

theorem rowStep_filter (s : Schema) (predicate : Expr) :
    RowStep s (predicate.type? s.types = some .boolean) (filterRow predicate.onRow) (filterBatch predicate) where
  sound := by
    intro b out hs h
    subst hs
    unfold filterBatch at h
    obtain ⟨c, hc, h⟩ := bind_eq_ok_iff.1 h
    obtain ⟨ht, hn, hv⟩ := Expr.evaluate_eq_ok hc
    unfold Batch.filter at h
    rw [if_pos hn] at h
    obtain ⟨mask, hmask, h⟩ := bind_eq_ok_iff.1 h
    cases h
    unfold Column.mask at hmask
    split at hmask
    · rename_i hb
      cases hmask
      refine ⟨by rw [ht, hb], expandRows_filterRow_eq_ok_iff.2 ⟨c.toList, hv, ?_⟩⟩
      simp only [Batch.rows_retain, Value.boolean?_eq_some_iff]
    · cases hmask
  complete := by
    intro b rows hs hfits h
    subst hs
    obtain ⟨vs, hvs, -⟩ := expandRows_filterRow_eq_ok_iff.1 h
    obtain ⟨c, hc, hct, -⟩ := Expr.exists_evaluate hfits hvs
    have hn := (Expr.evaluate_eq_ok hc).2.1
    refine ⟨b.retain (c.toList.map fun v => v.boolean? = some true), ?_⟩
    unfold filterBatch Batch.filter Column.mask
    rw [hc, ok_bind, if_pos hn, if_pos hct]
    rfl

end Physical

end ColumnarQuery
