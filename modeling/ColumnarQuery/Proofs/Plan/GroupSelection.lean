import ColumnarQuery.Proofs.Expr.Conjunction
import ColumnarQuery.Proofs.Source.Rows

/-!
# Groups by selection

The rows with a key, kept by a mask and aggregated without keys, have the answers of the group of that key
(`groupRows_withKey_iff`). So over a table in memory grouping returns for each of its keys what the aggregation of the
selected rows returns for it.
-/

namespace ColumnarQuery

/-! ## The rows with a key -/

theorem retain_eq_withKey (k : Row) (keys rows : List Row) :
    retain (keys.map fun key => decide (key = k)) rows = withKey k (keys.zip rows) := by
  unfold withKey
  induction keys generalizing rows with
  | nil => rfl
  | cons key keys ih =>
    cases rows with
    | nil => cases h : decide (key = k) <;> simp [retain, h]
    | cons row rows =>
      rw [List.map_cons, List.zip_cons_cons, List.filter_cons]
      by_cases h : key = k <;> simp [retain, h, ih]

theorem withKey_replicate (k : Row) (rows : List Row) :
    withKey k ((List.replicate rows.length k).zip rows) = rows := by
  induction rows with
  | nil => rfl
  | cons row rows ih =>
    unfold withKey at ih ⊢
    rw [List.length_cons, List.replicate_succ, List.zip_cons_cons, List.filter_cons_of_pos (by simp), List.map_cons, ih]

theorem eraseDups_replicate {n : Nat} (h : n ≠ 0) (k : Row) : (List.replicate n k).eraseDups = [k] := by
  cases n with
  | zero => exact absurd rfl h
  | succ n => simp [List.replicate_succ, List.eraseDups_cons]

variable {key : Row → Except Error Row} {aggregates : List (AggregateFunction × (Row → Except Error Value))}
  {rows keys out : List Row}

/-- Without keys the rows are one group, unless there is none. -/
theorem groupRows_nil_eq_ok_iff {answers : Row} (h : rows ≠ []) :
    groupRows (fun _ => .ok []) aggregates rows = .ok [answers] ↔
      (aggregates.mapM fun a => do a.1.answer (← rows.mapM a.2)) = .ok answers := by
  have hlen : rows.length ≠ 0 := fun hl => h (List.length_eq_zero_iff.1 hl)
  rw [groupRows, mapM_const, ok_bind, eraseDups_replicate hlen, List.mapM_cons, List.mapM_nil, withKey_replicate]
  simp [bind_eq_ok_iff]

/-- The group of a key is the only group among its rows, and has the same answers there. -/
theorem groupRows_withKey_iff {k answers : Row} (hkeys : rows.mapM key = .ok keys) (hk : k ∈ keys) :
    groupRows (fun _ => .ok []) aggregates (withKey k (keys.zip rows)) = .ok [answers] ↔
      (do
        let group := withKey k (keys.zip rows)
        return k ++ (← aggregates.mapM fun a => do a.1.answer (← group.mapM a.2)) : Except Error Row) =
          .ok (k ++ answers) := by
  have hne : withKey k (keys.zip rows) ≠ [] := by
    rw [Ne, withKey_eq_nil_iff (length_of_mapM_eq_ok hkeys)]
    exact not_not_intro hk
  rw [groupRows_nil_eq_ok_iff hne]
  simp [bind_eq_ok_iff]

theorem exists_answers_of_mem_groupRows {row : Row} (h : groupRows key aggregates rows = .ok out)
    (hkeys : rows.mapM key = .ok keys) (hrow : row ∈ out) :
    ∃ k answers, k ∈ keys ∧ row = k ++ answers ∧ answers.length = aggregates.length ∧
      groupRows (fun _ => .ok []) aggregates (withKey k (keys.zip rows)) = .ok [answers] := by
  rw [groupRows, hkeys, ok_bind] at h
  obtain ⟨k, hk, hout⟩ := exists_of_mem_mapM h hrow
  rw [List.mem_eraseDups] at hk
  obtain ⟨answers, hanswers, hrow⟩ := bind_eq_ok_iff.1 hout
  cases hrow
  exact ⟨k, answers, hk, rfl, length_of_mapM_eq_ok hanswers, (groupRows_withKey_iff hkeys hk).2 hout⟩

theorem exists_mem_groupRows_of_key {k : Row} (h : groupRows key aggregates rows = .ok out)
    (hkeys : rows.mapM key = .ok keys) (hk : k ∈ keys) : ∃ answers, k ++ answers ∈ out := by
  rw [groupRows, hkeys, ok_bind] at h
  rw [← List.mem_eraseDups] at hk
  obtain ⟨row, hrow⟩ := exists_mapM_eq_ok_iff.1 ⟨out, h⟩ k hk
  obtain ⟨answers, -, hanswers⟩ := bind_eq_ok_iff.1 hrow
  cases hanswers
  exact ⟨answers, mem_of_mapM_eq_ok h hk hrow⟩

/-! ## Selecting a key -/

/-- A selection of key equalities keeps the rows that stand with the key. -/
theorem Physical.Plan.onRows_filter_keysAre {plan : Physical.Plan} {pkeys : List Physical.Expr} {stored : List Row}
    {k : Row} (hrows : plan.onRows stored = .ok rows)
    (hkeys : (rows.mapM fun row => pkeys.mapM (·.onRow row)) = .ok keys)
    (ht : ∀ key ∈ keys, key.map Value.type = k.map Value.type) (hf : ∀ v ∈ k, v.type.isFloating = false) :
    (Plan.filter plan (.keysAre pkeys k)).onRows stored = .ok (withKey k (keys.zip rows)) := by
  have hvalues : (rows.mapM fun row => (Expr.keysAre pkeys k).onRow row) =
      .ok (keys.map fun key => .boolean (key = k)) := by
    rw [mapM_eq_ok_iff, List.forall₂_map_right_iff, List.forall₂_iff_get]
    obtain ⟨hl, hget⟩ := List.forall₂_iff_get.1 (mapM_eq_ok_iff.1 hkeys)
    exact ⟨hl, fun i h₁ h₂ => Expr.onRow_keysAre (hget i h₁ h₂) (ht _ (List.get_mem keys ⟨i, h₂⟩)) hf⟩
  rw [onRows, hrows, ok_bind, expandRows_filterRow_eq_ok_iff]
  refine ⟨_, hvalues, ?_⟩
  rw [List.map_map, ← retain_eq_withKey]
  simp [Function.comp_def]

theorem Physical.Plan.types_of_keys {q : Physical.Plan} {bs : List Batch} {keyTypes rest : List DataType}
    (hbs : q.execute = .ok bs) (hout : groupRows key aggregates rows = .ok (Batch.allRows bs))
    (hkeys : rows.mapM key = .ok keys) (hschema : q.schema.types = keyTypes ++ rest)
    (hlen : ∀ k ∈ keys, k.length = keyTypes.length) : ∀ k ∈ keys, k.map Value.type = keyTypes := by
  intro k hk
  obtain ⟨answers, hrow⟩ := exists_mem_groupRows_of_key hout hkeys hk
  obtain ⟨b, hb, hrow⟩ := Batch.exists_of_mem_allRows hrow
  have htypes := Batch.types_of_mem_rows hrow
  rw [schema_of_mem_execute hbs hb, hschema, List.map_append] at htypes
  exact (List.append_inj htypes (by rw [List.length_map, hlen k hk])).1

namespace Logical.Plan

/-- The plan succeeds, and its batches hold these rows. -/
def Returns (p : Plan) (rows : List Row) : Prop :=
  ∃ bs, p.execute = .ok bs ∧ Batch.allRows bs = rows

/-- The aggregates over the rows on which the keys have the given values. -/
def ofKey (input : Plan) (keys : List Expr) (aggregates : List Aggregate) (k : Row) : Plan :=
  .aggregate (.filter input (.keysAre keys k)) [] aggregates

variable {input : Plan} {keys : List Expr} {aggregates : List Aggregate} {t : Table}

theorem returns_iff {p : Plan} {q : Physical.Plan} (h : (p.reading t.source).resolve = .ok q) {rows : List Row} :
    (p.reading t.source).Returns rows ↔ q.Fits (t.batches ≠ []) ∧ q.onRows t.rows = .ok rows := by
  unfold Returns
  rw [execute, h, ok_bind]
  exact Physical.Plan.execute_iff (source_of_resolve_reading h) (consistent_of_resolve h)

theorem exists_resolve_ofKey {plan : Physical.Plan} {schema : Schema} {pkeys : List Physical.Expr}
    {paggregates : List Physical.Aggregate} (hplan : input.resolve = .ok plan)
    (hschema : aggregateSchema plan.schema keys aggregates = .ok schema)
    (hpkeys : keys.mapM (·.resolve plan.schema) = .ok pkeys)
    (hpaggregates : aggregates.mapM (·.resolve plan.schema) = .ok paggregates) (k : Row) :
    ∃ s, (ofKey input keys aggregates k).resolve =
      .ok (.aggregate (.filter plan (.keysAre pkeys k)) s [] paggregates) := by
  obtain ⟨keyFields, -, hrest⟩ := bind_eq_ok_iff.1 hschema
  obtain ⟨fields, hfields, hchecked⟩ := bind_eq_ok_iff.1 hrest
  obtain ⟨hnodup, -⟩ := Schema.checked_eq_ok_iff.1 hchecked
  rw [List.map_append] at hnodup
  have hschema' : aggregateSchema plan.schema [] aggregates = .ok ⟨fields⟩ := by
    rw [aggregateSchema, List.mapM_nil, pure_eq_ok, ok_bind, hfields, ok_bind]
    exact Schema.checked_eq_ok_iff.2 ⟨(List.nodup_append.1 hnodup).2.1, rfl⟩
  refine ⟨⟨fields⟩, ?_⟩
  rw [ofKey, resolve, resolve, hplan, ok_bind, Expr.resolve_keysAre hpkeys k, ok_bind, pure_eq_ok, ok_bind]
  simp only [Physical.Plan.schema, hschema', ok_bind, List.mapM_nil, pure_eq_ok, hpaggregates]

theorem length_of_keys {s : Schema} {pkeys : List Physical.Expr} {rows ks : List Row}
    (hpkeys : keys.mapM (·.resolve s) = .ok pkeys)
    (hks : (rows.mapM fun row => pkeys.mapM (·.onRow row)) = .ok ks) : ∀ k ∈ ks, k.length = keys.length := by
  intro k hk
  obtain ⟨row, -, hrow⟩ := exists_of_mem_mapM hks hk
  rw [length_of_mapM_eq_ok hrow, length_of_mapM_eq_ok hpkeys]

theorem types_of_keys {plan : Physical.Plan} {schema : Schema} {pkeys : List Physical.Expr}
    {paggregates : List Physical.Aggregate} {fields : List Field} {bs : List Batch} {rows ks : List Row}
    (hq : (aggregate input keys aggregates).resolve = .ok (.aggregate plan schema pkeys paggregates))
    (hfields : keys.mapM (·.fieldIn plan.schema) = .ok fields)
    (hbs : (Physical.Plan.aggregate plan schema pkeys paggregates).execute = .ok bs)
    (hout : groupRows (fun row => pkeys.mapM (·.onRow row)) (paggregates.map fun a => (a.function, a.input.onRow)) rows =
      .ok (Batch.allRows bs))
    (hks : (rows.mapM fun row => pkeys.mapM (·.onRow row)) = .ok ks) :
    ∀ k ∈ ks, k.map Value.type = fields.map Field.type := by
  obtain ⟨plan, schema, pkeys, paggregates, -, hschema, hpkeys, -, heq⟩ := resolve_aggregate_eq_ok hq
  cases heq
  obtain ⟨keyFields, hkeyFields, hrest⟩ := bind_eq_ok_iff.1 hschema
  obtain ⟨aggFields, -, hchecked⟩ := bind_eq_ok_iff.1 hrest
  rw [hfields, Except.ok.injEq] at hkeyFields
  subst hkeyFields
  have hs : schema.types = fields.map Field.type ++ aggFields.map Field.type := by
    rw [Schema.types, fields_of_checked hchecked, List.map_append]
  refine Physical.Plan.types_of_keys hbs hout hks hs fun k hk => ?_
  rw [length_of_keys hpkeys hks k hk, List.length_map, length_of_mapM_eq_ok hfields]

/-- The selection by a key sees the rows that are grouped under it. -/
theorem returns_ofKey {plan : Physical.Plan} {schema : Schema} {pkeys : List Physical.Expr}
    {paggregates : List Physical.Aggregate} {fields : List Field} {k : Row} {rows ks out : List Row}
    (hq : ((aggregate input keys aggregates).reading t.source).resolve = .ok (.aggregate plan schema pkeys paggregates))
    (hfields : keys.mapM (·.fieldIn plan.schema) = .ok fields)
    (hfits : (Physical.Plan.aggregate plan schema pkeys paggregates).Fits (t.batches ≠ []))
    (hrows : plan.onRows t.rows = .ok rows) (hks : (rows.mapM fun row => pkeys.mapM (·.onRow row)) = .ok ks)
    (htypes : ∀ key ∈ ks, key.map Value.type = fields.map Field.type)
    (hk : k.map Value.type = fields.map Field.type) (hfloat : ∀ f ∈ fields, f.type.isFloating = false)
    (hgroup : groupRows (fun _ => .ok []) (paggregates.map fun a => (a.function, a.input.onRow))
      (withKey k (ks.zip rows)) = .ok out) :
    ((ofKey input keys aggregates k).reading t.source).Returns out := by
  have hkfloat : ∀ v ∈ k, v.type.isFloating = false := by
    intro v hv
    have hmem : v.type ∈ fields.map Field.type := hk ▸ List.mem_map_of_mem hv
    obtain ⟨f, hf, hfv⟩ := List.mem_map.1 hmem
    rw [← hfv, hfloat f hf]
  obtain ⟨plan, schema, pkeys, paggregates, hplan, hschema, hpkeys, hpaggregates, heq⟩ := resolve_aggregate_eq_ok hq
  cases heq
  obtain ⟨hinput, haggregation⟩ := hfits
  obtain ⟨s, hs⟩ := exists_resolve_ofKey hplan hschema hpkeys hpaggregates k
  refine (returns_iff (p := ofKey input keys aggregates k) hs).2 ⟨⟨⟨hinput, fun hb => ?_⟩, fun hb => ?_⟩, ?_⟩
  · refine Physical.Expr.type?_keysAre ?_
    rw [hk]
    exact (Physical.Plan.map_type?_eq_iff (fieldTypes_of_resolve hpkeys hfields)).2 (haggregation hb).1
  · exact ⟨fun e he => (nomatch he), (haggregation hb).2⟩
  · have hselected := Physical.Plan.onRows_filter_keysAre hrows hks (fun key hkey => (htypes key hkey).trans hk.symm)
      hkfloat
    rw [Physical.Plan.onRows, hselected, ok_bind]
    exact hgroup

/-- A plan that aggregates by keys none of which is a number in floating point returns one row per key: for each of its
rows, to aggregate the selected rows of the key returns just the answers in that row. For any other key of the same
types it returns no row. -/
theorem answers_by_selection (input : Plan) (keys : List Expr) (aggregates : List Aggregate) (t : Table)
    {bs : List Batch} {s : Schema} {fields : List Field}
    (h : ((aggregate input keys aggregates).reading t.source).execute = .ok bs)
    (hs : (input.reading t.source).schema = .ok s) (hfields : keys.mapM (·.fieldIn s) = .ok fields)
    (hfloat : ∀ f ∈ fields, f.type.isFloating = false) :
    (∀ row ∈ Batch.allRows bs, ∃ k answers, row = k ++ answers ∧ k.length = keys.length ∧
      answers.length = aggregates.length ∧ ((ofKey input keys aggregates k).reading t.source).Returns [answers]) ∧
    ∀ k : Row, k.map Value.type = fields.map Field.type → k ∉ (Batch.allRows bs).map (·.take keys.length) →
      ((ofKey input keys aggregates k).reading t.source).Returns [] := by
  obtain ⟨q, hq, hbs⟩ := bind_eq_ok_iff.1 h
  obtain ⟨hfits, honRows⟩ := (returns_iff hq).1 ⟨bs, h, rfl⟩
  obtain ⟨plan, schema, pkeys, paggregates, hplan, hschema, hpkeys, hpaggregates, rfl⟩ := resolve_aggregate_eq_ok hq
  rw [schema_of_resolve hplan, Except.ok.injEq] at hs
  subst hs
  obtain ⟨rows, hrows, hout⟩ := bind_eq_ok_iff.1 honRows
  obtain ⟨ks, hks, -⟩ := bind_eq_ok_iff.1 hout
  have hlength := length_of_keys hpkeys hks
  have htypes := types_of_keys hq hfields hbs hout hks
  -- Both plans aggregate the rows that stand with `k` among the keys of all rows; of another key there is none.
  constructor
  · intro row hrow
    obtain ⟨k, answers, hk, rfl, hlen, hgroup⟩ := exists_answers_of_mem_groupRows hout hks hrow
    rw [List.length_map, length_of_mapM_eq_ok hpaggregates] at hlen
    exact ⟨k, answers, rfl, hlength k hk, hlen,
      returns_ofKey hq hfields hfits hrows hks htypes (htypes k hk) hfloat hgroup⟩
  · intro k hk hnew
    have hnot : k ∉ ks := by
      intro hmem
      obtain ⟨answers, hrow⟩ := exists_mem_groupRows_of_key hout hks hmem
      exact hnew (List.mem_map.2 ⟨k ++ answers, hrow, List.take_left' (hlength k hmem)⟩)
    refine returns_ofKey hq hfields hfits hrows hks htypes hk hfloat ?_
    rw [(withKey_eq_nil_iff (length_of_mapM_eq_ok hks)).2 hnot]
    rfl

/-- The nuts among three deliveries, and the nails, of which there are none. -/
theorem answers_by_selection_deliveries :
    let input : Plan := .scan "deliveries" (.fixed .empty []) []
    let keys : List Expr := [.column "item"]
    let aggregates : List Aggregate := [⟨.sum, .column "quantity"⟩, ⟨.count, .column "quantity"⟩]
    let source := (Table.deliveries 2).source
    ((aggregate input keys aggregates).reading source).Returns
        [[.text "nut", .ofInt .w64 4, .ofInt .w64 2], [.text "bolt", .ofInt .w64 2, .ofInt .w64 1]] ∧
      ((ofKey input keys aggregates [.text "nut"]).reading source).Returns [[.ofInt .w64 4, .ofInt .w64 2]] ∧
      ((ofKey input keys aggregates [.text "nail"]).reading source).Returns [] := by
  intro input keys aggregates source
  obtain ⟨hkeys, hothers⟩ := answers_by_selection input keys aggregates (.deliveries 2) rfl rfl rfl (by decide)
  refine ⟨⟨_, rfl, rfl⟩, ?_, hothers [.text "nail"] rfl (by decide +kernel)⟩
  obtain ⟨k, answers, hrow, hk, -, hreturns⟩ := hkeys _ List.mem_cons_self
  obtain ⟨v, rfl⟩ := List.length_eq_one_iff.1 hk
  cases hrow
  exact hreturns

end Logical.Plan

end ColumnarQuery
