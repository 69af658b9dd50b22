import ColumnarQuery.Proofs.Aggregate.Exact
import ColumnarQuery.Proofs.Plan.Chunking

/-!
# Order of rows

A plan of exact aggregates makes of rows in another order its rows in another order (`Physical.Plan.onRows_perm`). Over
tables of the same rows in any two orders, cut into batches anywhere, it succeeds on both or on neither
(`Logical.Plan.row_order_unobservable`).
-/

namespace ColumnarQuery

namespace Table

/-- Two tables of one schema with the same rows in some order, where either both have batches or neither has. -/
structure Reordered (t u : Table) : Prop where
  schema : t.schema = u.schema
  rows : t.rows.Perm u.rows
  empty : t.batches = [] ↔ u.batches = []

theorem Reordered.symm {t u : Table} (h : t.Reordered u) : u.Reordered t :=
  ⟨h.schema.symm, h.rows.symm, h.empty.symm⟩

theorem reordered_ofRows {schema : Schema} {rows rows' : List Row} {m n : Nat} {t u : Table} (h : rows.Perm rows')
    (ht : ofRows schema rows m = .ok t) (hu : ofRows schema rows' n = .ok u) : t.Reordered u := by
  obtain ⟨hts, rfl, hte⟩ := rows_ofRows ht
  obtain ⟨hus, rfl, hue⟩ := rows_ofRows hu
  refine ⟨hts.trans hus.symm, h, ?_⟩
  rw [hte, hue, ← List.length_eq_zero_iff, ← List.length_eq_zero_iff, h.length_eq]

end Table

/-! ## By positions -/

theorem expandRows_perm {f : Row → Except Error (List Row)} {rows rows' out : List Row} (h : rows.Perm rows')
    (hout : expandRows f rows = .ok out) : ∃ out', expandRows f rows' = .ok out' ∧ out.Perm out' := by
  obtain ⟨pieces, hpieces, rfl⟩ := map_eq_ok_iff.1 hout
  obtain ⟨pieces', hpieces', hperm⟩ := exists_mapM_perm h hpieces
  exact ⟨pieces'.flatten, by rw [expandRows, hpieces', map_ok], hperm.flatten⟩

namespace Physical.Plan

def Exact : Plan → Prop
  | scan _ _ => True
  | project input _ _ | filter input _ => input.Exact
  | aggregate input _ _ aggregates =>
    input.Exact ∧ ∀ a ∈ aggregates, ∃ t, a.input.fieldType? input.schema.types = some t ∧ a.function.isExact t = true

variable {q : Plan} {t : Table} {rows : List Row}

theorem of_mem_onRows (hq : q.source = t.source) (hc : q.Consistent) (hf : q.Fits (t.batches ≠ []))
    (h : q.onRows t.rows = .ok rows) {row : Row} (hrow : row ∈ rows) :
    q.Batched (t.batches ≠ []) ∧ row.map Value.type = q.schema.types := by
  obtain ⟨bs, hbs, rfl⟩ := (execute_iff hq hc).2 ⟨hf, h⟩
  obtain ⟨b, hb, hrow⟩ := Batch.exists_of_mem_allRows hrow
  refine ⟨(ne_nil_iff_batched hq hbs).1 (List.ne_nil_of_mem hb), ?_⟩
  rw [Batch.types_of_mem_rows hrow, schema_of_mem_execute hbs hb]

/-- The inputs of exact aggregates have the types on which they are exact. -/
theorem exactOn_onRow {input : Plan} {schema : Schema} {keys : List Expr} {aggregates : List Aggregate}
    (hc : input.Consistent) (hq : input.source = t.source)
    (hf : (aggregate input schema keys aggregates).Fits (t.batches ≠ []))
    (he : (aggregate input schema keys aggregates).Exact) (h : input.onRows t.rows = .ok rows) :
    ExactOn (aggregates.map fun a => (a.function, a.input.onRow)) rows := by
  intro p hp
  obtain ⟨a, ha, rfl⟩ := List.mem_map.1 hp
  obtain ⟨u, hu, hexact⟩ := he.2 a ha
  refine ⟨u, hexact, fun row hrow v hv => ?_⟩
  -- A row comes in a batch, on which the operators of the input were looked at.
  obtain ⟨hbatched, htypes⟩ := of_mem_onRows hq hc hf.1 h hrow
  obtain ⟨u', hu'⟩ := (hf.2 hbatched).2 a ha
  rw [Expr.fieldType?_of_type? hu', Option.some.injEq] at hu
  rw [← hu]
  exact Expr.type_of_onRow hu' htypes hv

/-- Step by step, a plan makes of rows in another order its rows in another order. -/
theorem onRows_perm (hq : q.source = t.source) (hc : q.Consistent) (hf : q.Fits (t.batches ≠ [])) (he : q.Exact)
    {stored : List Row} (hperm : t.rows.Perm stored) (h : q.onRows t.rows = .ok rows) :
    ∃ rows', q.onRows stored = .ok rows' ∧ rows.Perm rows' := by
  induction q generalizing rows with
  | scan source projection =>
    cases h
    exact ⟨_, rfl, hperm.map _⟩
  | project input schema exprs ih =>
    obtain ⟨ins, hins, h⟩ := bind_eq_ok_iff.1 h
    obtain ⟨ins', hins', hinput⟩ := ih hq hc.1 hf.1 he hins
    obtain ⟨rows', hrows', hrows⟩ := expandRows_perm hinput h
    exact ⟨rows', by rw [onRows, hins', ok_bind, hrows'], hrows⟩
  | filter input predicate ih =>
    obtain ⟨ins, hins, h⟩ := bind_eq_ok_iff.1 h
    obtain ⟨ins', hins', hinput⟩ := ih hq hc.1 hf.1 he hins
    obtain ⟨rows', hrows', hrows⟩ := expandRows_perm hinput h
    exact ⟨rows', by rw [onRows, hins', ok_bind, hrows'], hrows⟩
  | aggregate input schema keys aggregates ih =>
    obtain ⟨ins, hins, h⟩ := bind_eq_ok_iff.1 h
    obtain ⟨ins', hins', hinput⟩ := ih hq hc.1 hf.1 he.1 hins
    obtain ⟨rows', hrows', hrows⟩ := groupRows_perm (exactOn_onRow hc.1 hq hf he hins) hinput h
    exact ⟨rows', by rw [onRows, hins', ok_bind, hrows'], hrows⟩

end Physical.Plan

/-! ## By names -/

namespace Logical.Plan

/-- Every aggregate counts, or takes the sum, the least or the greatest of integers; there is no average. -/
def ExactAggregates : Plan → Prop
  | scan _ _ _ => True
  | project input _ | filter input _ => input.ExactAggregates
  | aggregate input _ aggregates =>
    input.ExactAggregates ∧ ∀ s, input.schema = .ok s →
      ∀ a ∈ aggregates, ∀ f, a.input.fieldIn s = .ok f → a.function.isExact f.type = true

theorem exact_of_resolve {p : Plan} {q : Physical.Plan} (h : p.resolve = .ok q) (he : p.ExactAggregates) : q.Exact := by
  induction p generalizing q with
  | scan path source projection =>
    cases h
    trivial
  | project input exprs ih =>
    obtain ⟨plan, schema, pexprs, hplan, -, -, rfl⟩ := resolve_project_eq_ok h
    show plan.Exact
    exact ih hplan he
  | filter input predicate ih =>
    obtain ⟨plan, pe, hplan, -, rfl⟩ := resolve_filter_eq_ok h
    show plan.Exact
    exact ih hplan he
  | aggregate input keys aggregates ih =>
    obtain ⟨plan, schema, pkeys, paggregates, hplan, -, -, hpaggregates, rfl⟩ := resolve_aggregate_eq_ok h
    refine ⟨ih hplan he.1, fun pa hpa => ?_⟩
    obtain ⟨a, ha, hres⟩ := exists_of_mem_mapM hpaggregates hpa
    obtain ⟨pe, hpe, rfl⟩ := map_eq_ok_iff.1 hres
    obtain ⟨f, hf⟩ := Expr.exists_fieldIn hpe
    exact ⟨f.type, Expr.fieldType?_of_resolve hpe hf, he.2 _ (schema_of_resolve hplan) a ha f hf⟩

section Reading
variable {source other : Source} (hs : source.schema = other.schema)
include hs

theorem schema_reading (p : Plan) : (p.reading source).schema = (p.reading other).schema := by
  induction p with
  | scan path _ projection => rw [reading, reading, schema, schema, hs]
  | project input exprs ih => rw [reading, reading, schema, schema, ih]
  | filter input predicate ih => rw [reading, reading, schema, schema, ih]
  | aggregate input keys aggregates ih => rw [reading, reading, schema, schema, ih]

theorem exactAggregates_reading (p : Plan) (h : (p.reading source).ExactAggregates) :
    (p.reading other).ExactAggregates := by
  induction p with
  | scan path _ projection => trivial
  | project input exprs ih => exact ih h
  | filter input predicate ih => exact ih h
  | aggregate input keys aggregates ih =>
    obtain ⟨hinput, haggregates⟩ := h
    rw [schema_reading hs input] at haggregates
    exact ⟨ih hinput, haggregates⟩

end Reading

/-- The plan succeeds over both tables or over neither, and returns the same rows in some order. -/
def SameOutcomeUnordered (p : Plan) (t u : Table) : Prop :=
  ((∃ bs, (p.reading t.source).execute = .ok bs) ↔ ∃ cs, (p.reading u.source).execute = .ok cs) ∧
    ∀ bs cs, (p.reading t.source).execute = .ok bs → (p.reading u.source).execute = .ok cs →
      (Batch.allRows bs).Perm (Batch.allRows cs)

variable {p : Plan} {t u : Table}

theorem execute_of_reordered {bs : List Batch} (h : t.Reordered u) (he : (p.reading t.source).ExactAggregates)
    (ht : (p.reading t.source).execute = .ok bs) :
    ∃ cs, (p.reading u.source).execute = .ok cs ∧ (Batch.allRows bs).Perm (Batch.allRows cs) := by
  obtain ⟨q, hq, hbs⟩ := bind_eq_ok_iff.1 ht
  obtain ⟨r, hr, halike⟩ := exists_alike u.source h.schema hq
  have hsource := source_of_resolve_reading hq
  have hconsistent := consistent_of_resolve hq
  obtain ⟨hfits, hon⟩ := (Physical.Plan.execute_iff hsource hconsistent).1 ⟨bs, hbs, rfl⟩
  obtain ⟨rows, hrows, hperm⟩ :=
    Physical.Plan.onRows_perm hsource hconsistent hfits (exact_of_resolve hq he) h.rows hon
  have hempty : (t.batches ≠ []) = (u.batches ≠ []) := propext (not_congr h.empty)
  rw [halike.fits, hempty] at hfits
  rw [halike.onRows] at hrows
  obtain ⟨cs, hcs, rfl⟩ :=
    (Physical.Plan.execute_iff (source_of_resolve_reading hr) (consistent_of_resolve hr)).2 ⟨hfits, hrows⟩
  exact ⟨cs, by rw [execute, hr, ok_bind, hcs], hperm⟩

theorem sameOutcomeUnordered_of_reordered (h : t.Reordered u) (he : (p.reading t.source).ExactAggregates) :
    p.SameOutcomeUnordered t u := by
  refine ⟨⟨?_, ?_⟩, ?_⟩
  · intro ht
    obtain ⟨bs, hbs⟩ := ht
    obtain ⟨cs, hcs, -⟩ := execute_of_reordered h he hbs
    exact ⟨cs, hcs⟩
  · intro hu
    obtain ⟨cs, hcs⟩ := hu
    have hs : t.source.schema = u.source.schema := h.schema
    obtain ⟨bs, hbs, -⟩ := execute_of_reordered h.symm (exactAggregates_reading hs p he) hcs
    exact ⟨bs, hbs⟩
  · intro bs cs hbs hcs
    obtain ⟨cs', hcs', hperm⟩ := execute_of_reordered h he hbs
    rw [hcs, Except.ok.injEq] at hcs'
    rw [hcs']
    exact hperm

/-- In which order the rows of a table stand, and where they are cut into batches, is not observable through exact
aggregates, but in the order of the rows that a plan returns. -/
theorem row_order_unobservable (p : Plan) (schema : Schema) {rows rows' : List Row} (h : rows.Perm rows') (m n : Nat) :
    ((∃ t, Table.ofRows schema rows m = .ok t) ↔ ∃ u, Table.ofRows schema rows' n = .ok u) ∧
      ∀ t u, Table.ofRows schema rows m = .ok t → Table.ofRows schema rows' n = .ok u →
        (p.reading t.source).ExactAggregates → p.SameOutcomeUnordered t u := by
  refine ⟨?_, fun t u ht hu he => sameOutcomeUnordered_of_reordered (Table.reordered_ofRows h ht hu) he⟩
  rw [Table.exists_ofRows_iff, Table.exists_ofRows_iff]
  simp only [h.mem_iff]

/-- Three deliveries in the order of the table of deliveries, and with the bolts first. -/
theorem row_order_unobservable_quantities :
    ∃ u cs,
      Table.ofRows ⟨[⟨"item", .text, false⟩, ⟨"quantity", .int .w64, false⟩]⟩
        [[.text "nut", .ofInt .w64 1], [.text "bolt", .ofInt .w64 2], [.text "nut", .ofInt .w64 3]] 1 =
          .ok (.deliveries 1) ∧
      Table.ofRows ⟨[⟨"item", .text, false⟩, ⟨"quantity", .int .w64, false⟩]⟩
        [[.text "bolt", .ofInt .w64 2], [.text "nut", .ofInt .w64 3], [.text "nut", .ofInt .w64 1]] 2 = .ok u ∧
      (quantities.reading (Table.deliveries 1).source).ExactAggregates ∧
      quantities.SameOutcomeUnordered (.deliveries 1) u ∧ (quantities.reading u.source).execute = .ok cs ∧
      [[.text "nut", .ofInt .w64 4, .ofInt .w64 2], [.text "bolt", .ofInt .w64 2, .ofInt .w64 1]].Perm
        (Batch.allRows cs) := by
  have hexact : (quantities.reading (Table.deliveries 1).source).ExactAggregates := by
    refine ⟨trivial, fun s hs => ?_⟩
    cases hs
    rw [List.forall_mem_cons, List.forall_mem_singleton]
    constructor
    · intro f hf
      cases hf
      rfl
    · intro f hf
      rfl
  have hperm : List.Perm (α := Row)
      [[.text "nut", .ofInt .w64 1], [.text "bolt", .ofInt .w64 2], [.text "nut", .ofInt .w64 3]]
      [[.text "bolt", .ofInt .w64 2], [.text "nut", .ofInt .w64 3], [.text "nut", .ofInt .w64 1]] := by decide
  obtain ⟨hload, hsame⟩ := row_order_unobservable quantities
    ⟨[⟨"item", .text, false⟩, ⟨"quantity", .int .w64, false⟩]⟩ hperm 1 2
  obtain ⟨u, hu⟩ := hload.1 ⟨.deliveries 1, rfl⟩
  have hsame := hsame (.deliveries 1) u rfl hu hexact
  obtain ⟨cs, hcs⟩ := hsame.1.1 ⟨_, rfl⟩
  exact ⟨u, cs, rfl, hu, hexact, hsame, hcs, hsame.2 _ cs rfl hcs⟩

end Logical.Plan

end ColumnarQuery
