import ColumnarQuery.Proofs.Expr.Failure
import ColumnarQuery.Proofs.Plan.Resolution
import ColumnarQuery.Proofs.Source.Rows

/-!
# Why plans fail

`Physical.Plan.Fails` is the place in a plan at which its execution ends, with the cause. Over a table in memory a plan whose
columns are found fails at such a place only, with the error of the cause (`Physical.Plan.execute_eq_error_iff`).
-/

namespace ColumnarQuery

namespace Physical

/-! ## Steps on a batch -/

section Steps
variable {b : Batch} {err : Error}

theorem projectBatch_eq_error_iff {schema : Schema} {exprs : List Expr}
    (h : exprs.map (·.fieldType? b.schema.types) = schema.types.map some) :
    projectBatch schema exprs b = .error err ↔
      ∃ e c, Reaches (Expr.evaluate b) exprs e ∧ e.Fails b c ∧ c.error = err := by
  rw [← Expr.mapM_evaluate_eq_error_iff (exists_of_map_eq_map_some h)]
  unfold projectBatch
  rw [bind_eq_error_iff]
  constructor
  · intro hall
    rcases hall with hall | ⟨columns, hcolumns, hall⟩
    · exact hall
    · obtain ⟨-, hn, -⟩ := Expr.mapM_evaluate_eq_ok hcolumns
      obtain ⟨out, hout⟩ := Batch.exists_ofColumns (types_of_mapM_evaluate h hcolumns) hn
      rw [hout] at hall
      cases hall
  · exact .inl

theorem filterBatch_eq_error_iff {predicate : Expr} {t : DataType}
    (h : predicate.fieldType? b.schema.types = some t) :
    filterBatch predicate b = .error err ↔
      (∃ c, predicate.Fails b c ∧ c.error = err) ∨
        ∃ column, predicate.evaluate b = .ok column ∧ column.type ≠ .boolean ∧
          err = .typeMismatch .boolean column.type := by
  rw [← Expr.evaluate_eq_error_iff h]
  unfold filterBatch
  rw [bind_eq_error_iff]
  refine or_congr_right (exists_congr fun column => and_congr_right fun hcolumn => ?_)
  unfold Batch.filter Column.mask
  rw [if_pos (Expr.evaluate_eq_ok hcolumn).2.1]
  by_cases hb : column.type = .boolean
  · simp [hb]
  · simp [hb, eq_comm]

theorem groupBatch_eq_error_iff {keys : List Expr} {aggregates : List Aggregate} {keyTypes : List DataType}
    {specs : AggregateInputs} {gs : Groups} (h : AggregationFields b.schema keys aggregates keyTypes specs)
    (hgs : gs.Typed keyTypes specs) :
    groupBatch keys aggregates gs b = .error err ↔
      (∃ e c, Reaches (Expr.evaluate b) keys e ∧ e.Fails b c ∧ c.error = err) ∨
      (∃ keyColumns, keys.mapM (·.evaluate b) = .ok keyColumns ∧
        ∃ e c, Reaches (Expr.evaluate b) (aggregates.map (·.input)) e ∧ e.Fails b c ∧ c.error = err) ∨
      ∃ keyColumns, keys.mapM (·.evaluate b) = .ok keyColumns ∧
        ∃ inputColumns, (aggregates.map (·.input)).mapM (·.evaluate b) = .ok inputColumns ∧ b.rowCount ≠ 0 ∧
        ∃ fn t,
          AggregateInputs.refused? ((aggregates.map (·.function)).zip (inputColumns.map Column.type)) = some (fn, t) ∧
          err = .unsupported (.aggregateInput fn t) := by
  have hfunctions : aggregates.map (·.function) = specs.map Prod.fst := by
    have hall := congrArg (List.map Prod.fst) h.aggregates_eq
    rwa [List.map_map, List.map_map] at hall
  rw [← Expr.mapM_evaluate_eq_error_iff (exists_of_map_eq_map_some h.keys_eq),
    ← Expr.mapM_evaluate_eq_error_iff (exists_of_map_eq_map_some h.inputs_eq)]
  unfold groupBatch
  rw [mapM_input, h.starts_eq, bind_eq_error_iff]
  refine or_congr_right ?_
  -- Both sides need the key columns.
  cases hkeys : keys.mapM (·.evaluate b) with
  | error e => simp
  | ok keyColumns =>
    simp only [Except.ok.injEq, exists_eq_left', bind_eq_error_iff]
    refine or_congr_right ?_
    cases hinputs : (aggregates.map (·.input)).mapM (·.evaluate b) with
    | error e => simp
    | ok inputColumns =>
      obtain ⟨-, hkn, -⟩ := Expr.mapM_evaluate_eq_ok hkeys
      obtain ⟨-, hin, -⟩ := Expr.mapM_evaluate_eq_ok hinputs
      have hkt := types_of_mapM_evaluate h.keys_eq hkeys
      have hit := types_of_mapM_evaluate h.inputs_eq hinputs
      have hspecs : (aggregates.map (·.function)).zip (inputColumns.map Column.type) = specs := by
        rw [hfunctions, hit, List.zip_map', List.map_id']
      simp only [Except.ok.injEq, exists_eq_left', hspecs]
      exact hgs.addRows_eq_error_iff hkn hin hkt hit

end Steps

/-! ## Plans -/

namespace Plan

/-- The first place at which a plan cannot be executed: a step whose input has batches comes to a batch on which an
expression fails, a predicate is not boolean, or an aggregate function does not accept its inputs. -/
inductive Fails : Plan → Cause → Prop
  | input {q input : Plan} {c : Cause} : q.input? = some input → input.Fails c → q.Fails c
  | projected {input : Plan} {schema : Schema} {exprs : List Expr} {bs : List Batch} {b : Batch} {e : Expr}
    {c : Cause} :
    input.execute = .ok bs → Reaches (projectBatch schema exprs) bs b → Reaches (Expr.evaluate b) exprs e →
      e.Fails b c → (project input schema exprs).Fails c
  | selected {input : Plan} {predicate : Expr} {bs : List Batch} {b : Batch} {c : Cause} :
    input.execute = .ok bs → Reaches (filterBatch predicate) bs b → predicate.Fails b c →
      (filter input predicate).Fails c
  | predicate {input : Plan} {predicate : Expr} {bs : List Batch} {b : Batch} {column : Column} :
    input.execute = .ok bs → Reaches (filterBatch predicate) bs b → predicate.evaluate b = .ok column →
      column.type ≠ .boolean → (filter input predicate).Fails (.predicate column.type)
  | key {input : Plan} {schema : Schema} {keys : List Expr} {aggregates : List Aggregate} {bs : List Batch}
    {gs : Groups} {b : Batch} {e : Expr} {c : Cause} :
    input.execute = .ok bs → FoldReaches (groupBatch keys aggregates) [] bs gs b → Reaches (Expr.evaluate b) keys e →
      e.Fails b c → (aggregate input schema keys aggregates).Fails c
  | aggregated {input : Plan} {schema : Schema} {keys : List Expr} {aggregates : List Aggregate} {bs : List Batch}
    {gs : Groups} {b : Batch} {keyColumns : List Column} {e : Expr} {c : Cause} :
    input.execute = .ok bs → FoldReaches (groupBatch keys aggregates) [] bs gs b →
      keys.mapM (·.evaluate b) = .ok keyColumns → Reaches (Expr.evaluate b) (aggregates.map (·.input)) e →
      e.Fails b c → (aggregate input schema keys aggregates).Fails c
  | aggregateInput {input : Plan} {schema : Schema} {keys : List Expr} {aggregates : List Aggregate} {bs : List Batch}
    {gs : Groups} {b : Batch} {keyColumns inputColumns : List Column} {fn : AggregateFunction} {t : DataType} :
    input.execute = .ok bs → FoldReaches (groupBatch keys aggregates) [] bs gs b →
      keys.mapM (·.evaluate b) = .ok keyColumns →
      (aggregates.map (·.input)).mapM (·.evaluate b) = .ok inputColumns → b.rowCount ≠ 0 →
      AggregateInputs.refused? ((aggregates.map (·.function)).zip (inputColumns.map Column.type)) = some (fn, t) →
      (aggregate input schema keys aggregates).Fails (.aggregateInput fn t)

variable {q : Plan} {t : Table} {err : Error}

theorem exists_fails_aggregate {input : Plan} {schema : Schema} {keys : List Expr} {aggregates : List Aggregate}
    {keyTypes : List DataType} {specs : AggregateInputs} {bs : List Batch} (hbs : input.execute = .ok bs)
    (hfields : AggregationFields input.schema keys aggregates keyTypes specs)
    (h : bs.foldlM (groupBatch keys aggregates) [] = .error err) :
    ∃ c, (aggregate input schema keys aggregates).Fails c ∧ c.error = err := by
  obtain ⟨gs, b, hreach, hb⟩ := foldlM_eq_error_iff.1 h
  have hs := schema_of_mem_execute hbs hreach.mem
  have htyped := typed_of_foldReaches hfields (fun _ hb => schema_of_mem_execute hbs hb) hreach
  rcases (groupBatch_eq_error_iff (hs ▸ hfields) htyped).1 hb with ⟨e, c, he, hfail, herr⟩ |
    ⟨keyColumns, hkeys, e, c, he, hfail, herr⟩ | ⟨keyColumns, hkeys, inputColumns, hinputs, hn, fn, u, hr, rfl⟩
  · exact ⟨c, .key hbs hreach he hfail, herr⟩
  · exact ⟨c, .aggregated hbs hreach hkeys he hfail, herr⟩
  · exact ⟨_, .aggregateInput hbs hreach hkeys hinputs hn hr, rfl⟩

theorem exists_fails (hq : q.source = t.source) (hc : q.Consistent) (h : q.execute = .error err) :
    ∃ c, q.Fails c ∧ c.error = err := by
  induction q with
  | scan source projection =>
    change source = t.source at hq
    subst hq
    obtain ⟨bs, hbs, -⟩ := t.exists_scanChecked projection
    rw [execute, hbs] at h
    cases h
  | project input schema exprs ih =>
    rw [execute, bind_eq_error_iff] at h
    rcases h with h | ⟨bs, hbs, h⟩
    · obtain ⟨c, hfail, herr⟩ := ih hq hc.1 h
      exact ⟨c, .input rfl hfail, herr⟩
    · obtain ⟨b, hreach, hb⟩ := mapM_eq_error_iff.1 h
      have hs := schema_of_mem_execute hbs hreach.mem
      obtain ⟨e, c, he, hfail, herr⟩ := (projectBatch_eq_error_iff (hs ▸ hc.2)).1 hb
      exact ⟨c, .projected hbs hreach he hfail, herr⟩
  | filter input predicate ih =>
    obtain ⟨hinput, u, hu⟩ := hc
    rw [execute, bind_eq_error_iff] at h
    rcases h with h | ⟨bs, hbs, h⟩
    · obtain ⟨c, hfail, herr⟩ := ih hq hinput h
      exact ⟨c, .input rfl hfail, herr⟩
    · obtain ⟨b, hreach, hb⟩ := mapM_eq_error_iff.1 h
      have hs := schema_of_mem_execute hbs hreach.mem
      rcases (filterBatch_eq_error_iff (hs ▸ hu)).1 hb with ⟨c, hfail, herr⟩ | ⟨column, hcolumn, hne, rfl⟩
      · exact ⟨c, .selected hbs hreach hfail, herr⟩
      · exact ⟨_, .predicate hbs hreach hcolumn hne, rfl⟩
  | aggregate input schema keys aggregates ih =>
    obtain ⟨hinput, keyTypes, specs, hfields, hschema⟩ := hc
    rw [execute, bind_eq_error_iff] at h
    rcases h with h | ⟨bs, hbs, h⟩
    · obtain ⟨c, hfail, herr⟩ := ih hq hinput h
      exact ⟨c, .input rfl hfail, herr⟩
    rw [bind_eq_error_iff] at h
    rcases h with h | ⟨gs, hgs, h⟩
    · exact exists_fails_aggregate hbs hfields h
    · have htyped := typed_foldlM_groupBatch hfields (fun b hb => schema_of_mem_execute hbs hb) hgs
      obtain ⟨out, hout, -⟩ := htyped.exists_toBatch hschema (hfields.size_eq hschema)
      rw [hout] at h
      cases h

theorem consistent_of_input? {input : Plan} (h : q.input? = some input) (hc : q.Consistent) : input.Consistent := by
  cases q with
  | scan source projection => cases h
  | project input' schema exprs => exact Option.some.inj h ▸ hc.1
  | filter input' predicate => exact Option.some.inj h ▸ hc.1
  | aggregate input' schema keys aggregates => exact Option.some.inj h ▸ hc.1

theorem execute_of_input? {input : Plan} (h : q.input? = some input) (he : input.execute = .error err) :
    q.execute = .error err := by
  cases q with
  | scan source projection => cases h
  | project input' schema exprs =>
    cases h
    rw [execute, he, error_bind]
  | filter input' predicate =>
    cases h
    rw [execute, he, error_bind]
  | aggregate input' schema keys aggregates =>
    cases h
    rw [execute, he, error_bind]

/-- A plan fails at such a place. -/
theorem execute_of_fails {c : Cause} (hc : q.Consistent) (h : q.Fails c) : q.execute = .error c.error := by
  induction h with
  | input hq _ ih => exact execute_of_input? hq (ih (consistent_of_input? hq hc))
  | projected hbs hreach he hfail =>
    have hexprs := mapM_eq_error_iff.2 ⟨_, he, Expr.evaluate_of_fails hfail⟩
    rw [execute, hbs, ok_bind, mapM_eq_error_iff]
    exact ⟨_, hreach, by rw [projectBatch, hexprs, error_bind]⟩
  | selected hbs hreach hfail =>
    rw [execute, hbs, ok_bind, mapM_eq_error_iff]
    exact ⟨_, hreach, by rw [filterBatch, Expr.evaluate_of_fails hfail, error_bind]⟩
  | predicate hbs hreach hcolumn hne =>
    have hfield := Expr.fieldType?_of_type? (Expr.evaluate_eq_ok hcolumn).1
    rw [execute, hbs, ok_bind, mapM_eq_error_iff]
    exact ⟨_, hreach, (filterBatch_eq_error_iff hfield).2 (.inr ⟨_, hcolumn, hne, rfl⟩)⟩
  | key hbs hreach he hfail =>
    have hkeys := mapM_eq_error_iff.2 ⟨_, he, Expr.evaluate_of_fails hfail⟩
    rw [execute, hbs, ok_bind, foldlM_eq_error_iff.2 ⟨_, _, hreach, by rw [groupBatch, hkeys, error_bind]⟩, error_bind]
  | aggregated hbs hreach hkeys he hfail =>
    have hinputs := mapM_eq_error_iff.2 ⟨_, he, Expr.evaluate_of_fails hfail⟩
    have hbatch := foldlM_eq_error_iff.2
      ⟨_, _, hreach, by rw [groupBatch, hkeys, ok_bind, mapM_input, hinputs, error_bind]⟩
    rw [execute, hbs, ok_bind, hbatch, error_bind]
  | @aggregateInput input schema keys aggregates bs gs b _ _ fn t hbs hreach hkeys hinputs hn hr =>
    obtain ⟨hinput, keyTypes, specs, hfields, hschema⟩ := hc
    have hs := schema_of_mem_execute hbs hreach.mem
    have htyped := typed_of_foldReaches hfields (fun _ hb => schema_of_mem_execute hbs hb) hreach
    have hbatch := foldlM_eq_error_iff.2 ⟨gs, b, hreach, (groupBatch_eq_error_iff (hs ▸ hfields) htyped).2
      (.inr (.inr ⟨_, hkeys, _, hinputs, hn, fn, t, hr, rfl⟩))⟩
    rw [execute, hbs, ok_bind, hbatch, error_bind, Cause.error]

/-- Over a table in memory a plan whose columns are found fails at such a place, with the error of its cause. -/
theorem execute_eq_error_iff (hq : q.source = t.source) (hc : q.Consistent) :
    q.execute = .error err ↔ ∃ c, q.Fails c ∧ c.error = err := by
  constructor
  · exact exists_fails hq hc
  · intro h
    obtain ⟨c, hfail, rfl⟩ := h
    exact execute_of_fails hc hfail

theorem accepts_of_refused? {specs : AggregateInputs} {fn : AggregateFunction} {u : DataType}
    (h : specs.refused? = some (fn, u)) : fn.accepts u = false := by
  have hnot := List.find?_some h
  simpa using hnot

theorem justified_of_fails {c : Cause} (h : q.Fails c) : c.Justified := by
  induction h with
  | input _ _ ih => exact ih
  | projected _ _ _ hfail => exact Expr.justified_of_fails hfail
  | selected _ _ hfail => exact Expr.justified_of_fails hfail
  | predicate _ _ _ hne => exact hne
  | key _ _ _ hfail => exact Expr.justified_of_fails hfail
  | aggregated _ _ _ _ hfail => exact Expr.justified_of_fails hfail
  | aggregateInput _ _ _ _ _ hr => exact accepts_of_refused? hr

end Plan

end Physical

/-! ## Planned queries -/

namespace Logical

theorem Expr.evaluate_of_resolve {s : Schema} {e : Expr} {f : Field} {pe : Physical.Expr} {b : Batch} {c : Column}
    (hf : e.fieldIn s = .ok f) (hpe : e.resolve s = .ok pe) (hs : b.schema = s) (hc : pe.evaluate b = .ok c) :
    c.length = b.rowCount ∧ c.type = f.type := by
  subst hs
  obtain ⟨ht, hn, -⟩ := Physical.Expr.evaluate_eq_ok hc
  have hfield := Physical.Expr.fieldType?_of_type? ht
  rw [fieldType?_of_resolve hpe hf, Option.some.injEq] at hfield
  exact ⟨hn, hfield.symm⟩

/-- Expressions keep lengths and types, and a plan whose columns are found fails over a table in memory for one of four
reasons only: two operands, or a predicate, of the wrong type; an operator, or an aggregate function, that does not
accept a type; an integer divided by zero. No error about a name, a position, a length or a schema is left, and none
about an aggregate without values. -/
theorem Plan.failures_of_planned :
    (∀ (s : Schema) (e : Expr) (f : Field) (pe : Physical.Expr) (b : Batch) (c : Column),
      e.fieldIn s = .ok f → e.resolve s = .ok pe → b.schema = s → pe.evaluate b = .ok c →
        c.length = b.rowCount ∧ c.type = f.type) ∧
    ∀ (p : Plan) (t : Table) (q : Physical.Plan) (err : Error),
      (p.reading t.source).resolve = .ok q → q.execute = .error err →
        (∃ left right, err = .typeMismatch left right ∧
          (left ≠ right ∧ q.Fails (.operands left right) ∨
            left = .boolean ∧ right ≠ .boolean ∧ q.Fails (.predicate right))) ∨
        (∃ op operand, err = .unsupported (.operand op operand) ∧ op.accepts operand = false ∧
          q.Fails (.operator op operand)) ∨
        (∃ fn input, err = .unsupported (.aggregateInput fn input) ∧ fn.accepts input = false ∧
          q.Fails (.aggregateInput fn input)) ∨
        err = .divisionByZero ∧ q.Fails .zeroDivisor := by
  refine ⟨fun s e f pe b c hf hpe hs hc => Expr.evaluate_of_resolve hf hpe hs hc, ?_⟩
  intro p t q err hq herr
  obtain ⟨c, hfail, rfl⟩ :=
    (Physical.Plan.execute_eq_error_iff (source_of_resolve_reading hq) (consistent_of_resolve hq)).1 herr
  have hjust := Physical.Plan.justified_of_fails hfail
  cases c with
  | operands left right => exact .inl ⟨left, right, rfl, .inl ⟨hjust, hfail⟩⟩
  | predicate type => exact .inl ⟨.boolean, type, rfl, .inr ⟨rfl, hjust, hfail⟩⟩
  | operator op operand => exact .inr (.inl ⟨op, operand, rfl, hjust, hfail⟩)
  | aggregateInput fn input => exact .inr (.inr (.inl ⟨fn, input, rfl, hjust, hfail⟩))
  | zeroDivisor => exact .inr (.inr (.inr ⟨rfl, hfail⟩))

namespace Plan

/-- The deliveries whose item is a number greater than zero, which compares texts with an integer. -/
def numberedItems : Plan :=
  .filter (.scan "deliveries" (.fixed .empty []) [])
    (.binary (.comparison .gt) (.column "item") (.literal (.ofInt .w64 0)))

/-- A column of deliveries under another name, and a comparison of texts with an integer. -/
theorem failures_of_planned_deliveries :
    (∃ b ∈ (Table.deliveries 2).batches, ∃ f pe c,
      (Expr.renamed (.column "quantity") "pieces").fieldIn b.schema = .ok f ∧
        (Expr.renamed (.column "quantity") "pieces").resolve b.schema = .ok pe ∧ pe.evaluate b = .ok c ∧
        c.length = b.rowCount ∧ c.type = f.type) ∧
    ∃ q, (numberedItems.reading (Table.deliveries 2).source).resolve = .ok q ∧
      q.execute = .error (.typeMismatch .text (.int .w64)) ∧ q.Fails (.operands .text (.int .w64)) := by
  refine ⟨?_, ?_⟩
  · obtain ⟨hlen, htype⟩ := failures_of_planned.1 (Table.deliveries 2).schema
      (.renamed (.column "quantity") "pieces") _ _ ((Table.deliveries 2).batches.head (by decide)) _ rfl rfl rfl rfl
    exact ⟨_, List.head_mem _, _, _, _, rfl, rfl, rfl, hlen, htype⟩
  · refine ⟨_, rfl, rfl, ?_⟩
    have hcases := failures_of_planned.2 numberedItems (Table.deliveries 2) _ (.typeMismatch .text (.int .w64)) rfl rfl
    rcases hcases with ⟨l, r, heq, hfail⟩ | ⟨op, t, heq, -⟩ | ⟨fn, t, heq, -⟩ | ⟨heq, -⟩
    · cases heq
      rcases hfail with ⟨-, hfail⟩ | ⟨hbool, -⟩
      · exact hfail
      · cases hbool
    · cases heq
    · cases heq
    · cases heq

end Plan

end Logical

end ColumnarQuery
