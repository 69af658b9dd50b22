import ColumnarQuery.Physical.Execution
import ColumnarQuery.Proofs.Aggregate.TypedGroups
import ColumnarQuery.Proofs.Expr.Evaluation

/-!
# Aggregation of batches

The groups of batches are those of all their rows, wherever the rows are cut into batches
(`Physical.foldlM_groupBatch_eq_ok_iff`). Aggregation succeeds exactly if the schema fits it and the rows can be grouped
(`Physical.exists_aggregation_iff`).
-/

namespace ColumnarQuery.Physical

structure AggregationFields (s : Schema) (keys : List Expr) (aggregates : List Aggregate) (keyTypes : List DataType)
    (specs : AggregateInputs) : Prop where
  keys_eq : keys.map (·.fieldType? s.types) = keyTypes.map some
  aggregates_eq :
    aggregates.map (fun a => (a.function, a.input.fieldType? s.types)) = specs.map fun p => (p.1, some p.2)

def AggregationFits (s : Schema) (keys : List Expr) (aggregates : List Aggregate) : Prop :=
  (∀ e ∈ keys, ∃ t, e.type? s.types = some t) ∧ ∀ a ∈ aggregates, ∃ t, a.input.type? s.types = some t

variable {s : Schema} {keys : List Expr} {aggregates : List Aggregate} {keyTypes : List DataType}
  {specs : AggregateInputs} {b : Batch} {gs gs' : Groups}

/-! ## One batch -/

namespace AggregationFields

theorem starts_eq (h : AggregationFields s keys aggregates keyTypes specs) :
    aggregates.map (·.function.start) = Groups.starts specs := by
  have := congrArg (List.map fun p => p.1.start) h.aggregates_eq
  rwa [List.map_map, List.map_map] at this

theorem inputs_eq (h : AggregationFields s keys aggregates keyTypes specs) :
    (aggregates.map (·.input)).map (·.fieldType? s.types) = (specs.map Prod.snd).map some := by
  have := congrArg (List.map Prod.snd) h.aggregates_eq
  rw [List.map_map, List.map_map] at this
  rw [List.map_map, List.map_map]
  exact this

theorem size_eq {schema : Schema} (h : AggregationFields s keys aggregates keyTypes specs)
    (hschema : schema.types = keyTypes ++ specs.map fun p => p.1.resultType p.2) :
    schema.size = keys.length + aggregates.length := by
  have hk := congrArg List.length h.keys_eq
  have ha := congrArg List.length h.aggregates_eq
  have hts := congrArg List.length hschema
  simp only [List.length_map, List.length_append, Schema.types] at hk ha hts
  rw [Schema.size]
  omega

end AggregationFields

theorem types_of_mapM_evaluate {es : List Expr} {ts : List DataType} {columns : List Column}
    (ht : es.map (·.fieldType? b.schema.types) = ts.map some) (h : es.mapM (·.evaluate b) = .ok columns) :
    columns.map Column.type = ts := by
  have hsome : (columns.map Column.type).map some = ts.map some := by
    rw [← ht, ← List.forall₂_eq_eq_eq, List.map_map, List.forall₂_map_left_iff, List.forall₂_map_right_iff]
    refine ((mapM_eq_ok_iff.1 h).imp fun e c hc => ?_).flip
    exact (Expr.fieldType?_of_type? (Expr.evaluate_eq_ok hc).1).symm
  exact List.map_injective_iff.2 (fun _ _ => Option.some.inj) hsome

theorem mapM_input {α : Type} (f : Expr → Except Error α) (aggregates : List Aggregate) :
    (aggregates.mapM fun a => f a.input) = (aggregates.map (·.input)).mapM f := by
  rw [List.mapM_map]
  rfl

theorem map_start (aggregates : List Aggregate) :
    (aggregates.map fun a => (a.function, fun row => a.input.onRow row)).map (·.1.start) =
      aggregates.map (·.function.start) := by
  rw [List.map_map]
  rfl

theorem mapM_onRow_input (aggregates : List Aggregate) (row : Row) :
    (aggregates.map fun a => (a.function, fun row => a.input.onRow row)).mapM (·.2 row) =
      aggregates.mapM (·.input.onRow row) := by
  rw [List.mapM_map]
  rfl

theorem typed_groupBatch (h : AggregationFields s keys aggregates keyTypes specs) (hs : b.schema = s)
    (hgs : gs.Typed keyTypes specs) (hok : groupBatch keys aggregates gs b = .ok gs') : gs'.Typed keyTypes specs := by
  subst hs
  unfold groupBatch at hok
  rw [mapM_input, h.starts_eq] at hok
  obtain ⟨keyColumns, hkeys, hrest⟩ := bind_eq_ok_iff.1 hok
  obtain ⟨inputColumns, hinputs, hadd⟩ := bind_eq_ok_iff.1 hrest
  obtain ⟨-, hkn, -⟩ := Expr.mapM_evaluate_eq_ok hkeys
  obtain ⟨-, hin, -⟩ := Expr.mapM_evaluate_eq_ok hinputs
  exact hgs.typed_addRows hkn hin (types_of_mapM_evaluate h.keys_eq hkeys) (types_of_mapM_evaluate h.inputs_eq hinputs)
    hadd

def groupPrefix (keys : List Expr) (aggregates : List Aggregate) (n : Nat) (gs : Groups) (b : Batch) :
    Except Error Groups := do
  let keyColumns ← keys.mapM (·.evaluate b)
  let inputColumns ← aggregates.mapM (·.input.evaluate b)
  gs.addRows (aggregates.map (·.function.start)) keyColumns inputColumns n 0

theorem groupPrefix_eq_ok_iff {n : Nat} (hs : b.schema = s) (hn : n ≤ b.rowCount) :
    groupPrefix keys aggregates n gs b = .ok gs' ↔
      AggregationFits s keys aggregates ∧
        ∃ ks ins, (b.rows.mapM fun row => keys.mapM (·.onRow row)) = .ok ks ∧
          (b.rows.mapM fun row => aggregates.mapM (·.input.onRow row)) = .ok ins ∧
          ((ks.zip ins).take n).foldlM (fun gs p => gs.add (aggregates.map (·.function.start)) p.1 p.2) gs = .ok gs' := by
  subst hs
  have hinput : (fun row => aggregates.mapM (·.input.onRow row)) =
      fun row => (aggregates.map (·.input)).mapM (·.onRow row) := by
    funext row
    exact mapM_input (·.onRow row) aggregates
  unfold groupPrefix
  rw [mapM_input, hinput]
  constructor
  · intro h
    obtain ⟨keyColumns, hkeys, hrest⟩ := bind_eq_ok_iff.1 h
    obtain ⟨inputColumns, hinputs, hadd⟩ := bind_eq_ok_iff.1 hrest
    obtain ⟨-, hkn, hkrows⟩ := Expr.mapM_evaluate_eq_ok hkeys
    obtain ⟨-, hin, hirows⟩ := Expr.mapM_evaluate_eq_ok hinputs
    rw [Groups.addRows_eq_foldlM_take hkn hin hn, List.drop_zero] at hadd
    refine ⟨⟨?_, ?_⟩, _, _, hkrows, hirows, hadd⟩
    · intro e he
      obtain ⟨c, hc⟩ := exists_mapM_eq_ok_iff.1 ⟨keyColumns, hkeys⟩ e he
      exact ⟨c.type, (Expr.evaluate_eq_ok hc).1⟩
    · intro a ha
      obtain ⟨c, hc⟩ := exists_mapM_eq_ok_iff.1 ⟨inputColumns, hinputs⟩ a.input (List.mem_map_of_mem ha)
      exact ⟨c.type, (Expr.evaluate_eq_ok hc).1⟩
  · intro h
    obtain ⟨⟨hfk, hfi⟩, ks, ins, hks, hins, hadd⟩ := h
    obtain ⟨keyColumns, hkeys⟩ := Expr.exists_mapM_evaluate hfk hks
    have hfi' : ∀ e ∈ aggregates.map (·.input), ∃ t, e.type? b.schema.types = some t := by
      intro e he
      obtain ⟨a, ha, rfl⟩ := List.mem_map.1 he
      exact hfi a ha
    obtain ⟨inputColumns, hinputs⟩ := Expr.exists_mapM_evaluate hfi' hins
    obtain ⟨-, hkn, hkrows⟩ := Expr.mapM_evaluate_eq_ok hkeys
    obtain ⟨-, hin, hirows⟩ := Expr.mapM_evaluate_eq_ok hinputs
    rw [hks, Except.ok.injEq] at hkrows
    rw [hins, Except.ok.injEq] at hirows
    rw [hkeys, ok_bind, hinputs, ok_bind, Groups.addRows_eq_foldlM_take hkn hin hn, List.drop_zero, ← hkrows, ← hirows]
    exact hadd

theorem groupBatch_eq_ok_iff (hs : b.schema = s) :
    groupBatch keys aggregates gs b = .ok gs' ↔
      AggregationFits s keys aggregates ∧
        ∃ ks ins, (b.rows.mapM fun row => keys.mapM (·.onRow row)) = .ok ks ∧
          (b.rows.mapM fun row => aggregates.mapM (·.input.onRow row)) = .ok ins ∧
          (ks.zip ins).foldlM (fun gs p => gs.add (aggregates.map (·.function.start)) p.1 p.2) gs = .ok gs' := by
  have hbatch : groupBatch keys aggregates gs b = groupPrefix keys aggregates b.rowCount gs b := rfl
  rw [hbatch, groupPrefix_eq_ok_iff hs (Nat.le_refl _)]
  refine and_congr_right fun _ => exists_congr fun ks => exists_congr fun ins => and_congr_right fun hks =>
    and_congr_right fun _ => ?_
  have hl : (ks.zip ins).length ≤ b.rowCount := by
    have hlk := length_of_mapM_eq_ok hks
    rw [Batch.length_rows] at hlk
    rw [List.length_zip]
    omega
  rw [List.take_of_length_le hl]

/-! ## All batches -/

variable {bs : List Batch}

theorem typed_foldlM_groupBatch (h : AggregationFields s keys aggregates keyTypes specs)
    (hs : ∀ b ∈ bs, b.schema = s) (hok : bs.foldlM (groupBatch keys aggregates) [] = .ok gs) :
    gs.Typed keyTypes specs :=
  foldlM_invariant (fun b hb _ _ hgs hstep => typed_groupBatch h (hs b hb) hgs hstep) Groups.typed_nil hok

/-- The groups are of these types wherever a fold has come to. -/
theorem typed_of_foldReaches (h : AggregationFields s keys aggregates keyTypes specs) (hs : ∀ b ∈ bs, b.schema = s)
    (hreach : FoldReaches (groupBatch keys aggregates) [] bs gs b) : gs.Typed keyTypes specs := by
  obtain ⟨before, after, rfl, hbefore⟩ := hreach
  exact typed_foldlM_groupBatch h (fun b hb => hs b (List.mem_append_left _ hb)) hbefore

/-- Where a list of rows is cut into batches makes no difference to its groups, but that without a batch no operator
looks at its operands. -/
theorem foldlM_groupBatch_eq_ok_iff (hs : ∀ b ∈ bs, b.schema = s) :
    bs.foldlM (groupBatch keys aggregates) gs = .ok gs' ↔
      (bs ≠ [] → AggregationFits s keys aggregates) ∧
        ∃ ks ins, ((Batch.allRows bs).mapM fun row => keys.mapM (·.onRow row)) = .ok ks ∧
          ((Batch.allRows bs).mapM fun row => aggregates.mapM (·.input.onRow row)) = .ok ins ∧
          (ks.zip ins).foldlM (fun gs p => gs.add (aggregates.map (·.function.start)) p.1 p.2) gs = .ok gs' := by
  induction bs generalizing gs with
  | nil =>
    constructor
    · intro h
      exact ⟨fun hne => absurd rfl hne, [], [], rfl, rfl, h⟩
    · intro h
      obtain ⟨-, ks, ins, hks, hins, h⟩ := h
      cases hks
      exact h
  | cons b bs ih =>
    rw [List.forall_mem_cons] at hs
    rw [List.foldlM_cons, bind_eq_ok_iff, Batch.allRows_cons]
    simp only [mapM_append_eq_ok_iff]
    constructor
    · intro h
      obtain ⟨mid, hmid, h⟩ := h
      obtain ⟨hfits, ks₁, ins₁, hks₁, hins₁, hadd₁⟩ := (groupBatch_eq_ok_iff hs.1).1 hmid
      obtain ⟨-, ks₂, ins₂, hks₂, hins₂, hadd₂⟩ := (ih hs.2).1 h
      have hl : ks₁.length = ins₁.length := by rw [length_of_mapM_eq_ok hks₁, length_of_mapM_eq_ok hins₁]
      refine ⟨fun _ => hfits, _, _, ⟨ks₁, ks₂, hks₁, hks₂, rfl⟩, ⟨ins₁, ins₂, hins₁, hins₂, rfl⟩, ?_⟩
      rw [List.zip_append hl, List.foldlM_append, hadd₁, ok_bind, hadd₂]
    · intro h
      obtain ⟨hfits, _, _, ⟨ks₁, ks₂, hks₁, hks₂, rfl⟩, ⟨ins₁, ins₂, hins₁, hins₂, rfl⟩, hadd⟩ := h
      have hl : ks₁.length = ins₁.length := by rw [length_of_mapM_eq_ok hks₁, length_of_mapM_eq_ok hins₁]
      rw [List.zip_append hl, List.foldlM_append] at hadd
      obtain ⟨mid, hmid, hadd⟩ := bind_eq_ok_iff.1 hadd
      have hfits := hfits (List.cons_ne_nil b bs)
      exact ⟨mid, (groupBatch_eq_ok_iff hs.1).2 ⟨hfits, ks₁, ins₁, hks₁, hins₁, hmid⟩,
        (ih hs.2).2 ⟨fun _ => hfits, ks₂, ins₂, hks₂, hins₂, hadd⟩⟩

/-- Aggregation returns the rows of the groups of all rows. -/
theorem exists_aggregation_iff {schema : Schema} (h : AggregationFields s keys aggregates keyTypes specs)
    (hschema : schema.types = keyTypes ++ specs.map fun p => p.1.resultType p.2) (hs : ∀ b ∈ bs, b.schema = s)
    {rows : List Row} :
    (∃ gs out, bs.foldlM (groupBatch keys aggregates) [] = .ok gs ∧
        gs.toBatch schema (keys.length + aggregates.length) = .ok out ∧ out.rows = rows) ↔
      (bs ≠ [] → AggregationFits s keys aggregates) ∧
        groupRows (fun row => keys.mapM (·.onRow row)) (aggregates.map fun a => (a.function, a.input.onRow))
          (Batch.allRows bs) = .ok rows := by
  have hsize := h.size_eq hschema
  rw [groupRows_eq_ok_iff, map_start, funext (mapM_onRow_input aggregates)]
  constructor
  · intro hall
    obtain ⟨gs, out, hgs, hout, rfl⟩ := hall
    obtain ⟨out', hout', hrows⟩ := (typed_foldlM_groupBatch h hs hgs).exists_toBatch hschema hsize
    rw [hout, Except.ok.injEq] at hout'
    subst hout'
    obtain ⟨hfits, ks, ins, hks, hins, hadd⟩ := (foldlM_groupBatch_eq_ok_iff hs).1 hgs
    exact ⟨hfits, ks, ins, gs, hks, hins, Groups.foldlM_add_eq_ok_iff.1 hadd, hrows⟩
  · intro hall
    obtain ⟨hfits, ks, ins, gs, hks, hins, hofPairs, hrows⟩ := hall
    have hgs := (foldlM_groupBatch_eq_ok_iff hs).2 ⟨hfits, ks, ins, hks, hins, Groups.foldlM_add_eq_ok_iff.2 hofPairs⟩
    obtain ⟨out, hout, hrows'⟩ := (typed_foldlM_groupBatch h hs hgs).exists_toBatch hschema hsize
    rw [hrows, Except.ok.injEq] at hrows'
    exact ⟨gs, out, hgs, hout, hrows'.symm⟩

end ColumnarQuery.Physical
