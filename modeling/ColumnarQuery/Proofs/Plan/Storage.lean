import ColumnarQuery.Proofs.Batch.Positions
import ColumnarQuery.Physical.Execution

/-!
# Storage of columns

Over sources that are read alike a plan returns batches that are read alike (`Physical.Plan.storage_unobservable`). So it
does if its selections look up each value that they keep and store it again (`Physical.Plan.executeByIndex`).
-/

namespace ColumnarQuery

/-- Two sources of one schema, whose scans fail alike or return batches that are read alike. -/
structure Source.Equiv (s u : Source) : Prop where
  schema : s.schema = u.schema
  scan : ∀ names, Corresponds (List.Forall₂ Batch.Equiv) (s.scan names) (u.scan names)

namespace Physical

/-! ## Steps on a batch -/

section Steps
variable {b b' : Batch}

theorem mapM_evaluate_equiv (h : b.Equiv b') (es : List Expr) :
    Corresponds (List.Forall₂ Column.Equiv) (es.mapM (·.evaluate b)) (es.mapM (·.evaluate b')) :=
  .mapM_same fun e => e.evaluate_equiv h

theorem projectBatch_equiv (h : b.Equiv b') (schema : Schema) (exprs : List Expr) :
    Corresponds Batch.Equiv (projectBatch schema exprs b) (projectBatch schema exprs b') := by
  rw [projectBatch, projectBatch, h.rowCount]
  exact (mapM_evaluate_equiv h exprs).bind fun _ _ => Batch.ofColumns_congr

theorem filterBatch_equiv (h : b.Equiv b') (predicate : Expr) :
    Corresponds Batch.Equiv (filterBatch predicate b) (filterBatch predicate b') :=
  (predicate.evaluate_equiv h).bind fun _ _ => h.filter

theorem addRows_congr {start : List Accumulator} {keys keys' inputs inputs' : List Column}
    (hk : List.Forall₂ Column.Equiv keys keys') (hi : List.Forall₂ Column.Equiv inputs inputs') (n i : Nat)
    (gs : Groups) : gs.addRows start keys inputs n i = gs.addRows start keys' inputs' n i := by
  induction n generalizing i gs with
  | zero => rfl
  | succ n ih => simp only [Groups.addRows, mapM_valueAt_congr hk, mapM_valueAt_congr hi, ih]

theorem groupBatch_congr (h : b.Equiv b') (keys : List Expr) (aggregates : List Aggregate) (gs : Groups) :
    Corresponds Eq (groupBatch keys aggregates gs b) (groupBatch keys aggregates gs b') := by
  rw [groupBatch, groupBatch, h.rowCount]
  refine (mapM_evaluate_equiv h keys).bind fun ks ks' hk => ?_
  refine (Corresponds.mapM_same fun a => a.input.evaluate_equiv h).bind fun is is' hi => ?_
  rw [addRows_congr hk hi]
  exact .refl (fun _ => rfl) _

/-- Groups hold no columns: the two folds go through equal groups, not only through groups that are read alike. -/
theorem aggregateBatches_equiv {bs cs : List Batch} (h : List.Forall₂ Batch.Equiv bs cs) (schema : Schema)
    (keys : List Expr) (aggregates : List Aggregate) :
    Corresponds (List.Forall₂ Batch.Equiv)
      (do return [← (← bs.foldlM (groupBatch keys aggregates) []).toBatch schema (keys.length + aggregates.length)])
      (do return [← (← cs.foldlM (groupBatch keys aggregates) []).toBatch schema (keys.length + aggregates.length)]) := by
  have hgroups : Corresponds Eq (bs.foldlM (groupBatch keys aggregates) []) (cs.foldlM (groupBatch keys aggregates) []) :=
    .foldlM h (fun gs _ _ _ hgs hb => hgs ▸ groupBatch_congr hb keys aggregates gs) rfl
  refine hgroups.bind fun gs gs' hgs => ?_
  subst hgs
  exact (Corresponds.refl Batch.Equiv.refl _).bind fun b b' hb => .ok (.cons hb .nil)

end Steps

theorem scanChecked_equiv {s u : Source} (h : s.Equiv u) (projection : List String) :
    Corresponds (List.Forall₂ Batch.Equiv) (scanChecked s projection) (scanChecked u projection) := by
  rw [scanChecked, scanChecked, h.schema]
  refine (h.scan projection).bind fun bs cs hbs => ?_
  have hschemas : bs.map Batch.schema = cs.map Batch.schema := by
    rw [← List.forall₂_eq_eq_eq, List.forall₂_map_left_iff, List.forall₂_map_right_iff]
    exact hbs.imp fun _ _ hb => hb.schema
  have hfind := congrArg (List.find? (· ≠ u.schema.select projection)) hschemas
  rw [List.find?_map, List.find?_map] at hfind
  simp only [Function.comp_def] at hfind
  split <;> split
  · rename_i _ b hb _ c hc
    rw [hb, hc, Option.map_some, Option.map_some, Option.some.injEq] at hfind
    rw [hfind]
    exact .error
  · rename_i _ b hb _ hc
    rw [hb, hc] at hfind
    cases hfind
  · rename_i _ hb _ c hc
    rw [hb, hc] at hfind
    cases hfind
  · exact .ok hbs

namespace Plan

/-! ## Plans -/

def reading (source : Source) : Plan → Plan
  | scan _ projection => scan source projection
  | project input schema exprs => project (input.reading source) schema exprs
  | filter input predicate => filter (input.reading source) predicate
  | aggregate input schema keys aggregates => aggregate (input.reading source) schema keys aggregates

/-- How the columns of a source are stored is not observable: over two sources whose batches are read alike, any plan
fails with the same error or returns batches that are read alike. -/
theorem storage_unobservable (q : Plan) {s u : Source} (h : s.Equiv u) :
    Corresponds (List.Forall₂ Batch.Equiv) (q.reading s).execute (q.reading u).execute := by
  induction q with
  | scan source projection => exact scanChecked_equiv h projection
  | project input schema exprs ih =>
    exact ih.bind fun _ _ hbs => .mapM hbs fun _ _ hb => projectBatch_equiv hb schema exprs
  | filter input predicate ih =>
    exact ih.bind fun _ _ hbs => .mapM hbs fun _ _ hb => filterBatch_equiv hb predicate
  | aggregate input schema keys aggregates ih =>
    exact ih.bind fun _ _ hbs => aggregateBatches_equiv hbs schema keys aggregates

/-- Two nuts and two nuts more, with the item stored twice or once: the batches differ, their totals are read alike. -/
theorem storage_unobservable_repeated :
    let schema : Schema := ⟨[⟨"item", .text, false⟩, ⟨"quantity", .int .w64, false⟩]⟩
    let quantities : Column := .array (.int .w64) #[.ofInt .w64 2, .ofInt .w64 2] (by decide)
    let written : Batch := ⟨schema, [.array .text #[.text "nut", .text "nut"] (by decide), quantities], 2, rfl, by decide⟩
    let repeated : Batch := ⟨schema, [.constant (.text "nut") 2, quantities], 2, rfl, by decide⟩
    let totals : Plan := .aggregate
      (.filter (.scan (.fixed schema []) []) (.binary (.comparison .eq) (.column 0) (.literal (.text "nut"))))
      schema [.column 0] [⟨.sum, .column 1⟩]
    written ≠ repeated ∧ (Source.fixed schema [written]).Equiv (.fixed schema [repeated]) ∧
      Corresponds (List.Forall₂ Batch.Equiv) (totals.reading (.fixed schema [written])).execute
        (totals.reading (.fixed schema [repeated])).execute ∧
      ((totals.reading (.fixed schema [repeated])).execute.map (·.map Batch.rows)) =
        .ok [[[.text "nut", .ofInt .w64 4]]] := by
  intro schema quantities written repeated totals
  have hbatch : written.Equiv repeated := Batch.equiv_iff.2 ⟨rfl, rfl⟩
  have hsource : (Source.fixed schema [written]).Equiv (.fixed schema [repeated]) :=
    ⟨rfl, fun _ => .ok (.cons hbatch .nil)⟩
  exact ⟨by decide, hsource, storage_unobservable totals hsource, rfl⟩

/-! ## Selections by index -/

/-- The batches that a plan returns, where a selection looks up the values that it keeps one by one and stores them so. -/
def executeByIndex : Plan → Except Error (List Batch)
  | scan source projection => scanChecked source projection
  | project input schema exprs => do
    (← input.executeByIndex).mapM (projectBatch schema exprs)
  | filter input predicate => do
    (← input.executeByIndex).mapM fun b => do b.filterByIndex (← predicate.evaluate b)
  | aggregate input schema keys aggregates => do
    let groups ← (← input.executeByIndex).foldlM (groupBatch keys aggregates) []
    return [← groups.toBatch schema (keys.length + aggregates.length)]

/-- No look-up of a selection is out of bounds, and its values may as well stay as they are stored: a plan fails with the
same error, or returns batches that are read alike. -/
theorem executeByIndex_corresponds (q : Plan) :
    Corresponds (List.Forall₂ Batch.Equiv) q.executeByIndex q.execute := by
  induction q with
  | scan source projection => exact .refl (fun bs => List.forall₂_same.2 fun b _ => .refl b) _
  | project input schema exprs ih =>
    exact ih.bind fun _ _ hbs => .mapM hbs fun _ _ hb => projectBatch_equiv hb schema exprs
  | filter input predicate ih =>
    refine ih.bind fun _ _ hbs => .mapM hbs fun b b' hb => ?_
    refine (predicate.evaluate_equiv hb).bind fun selection selection' hs => ?_
    exact (b.filterByIndex_corresponds selection).trans Batch.Equiv.trans (hb.filter hs)
  | aggregate input schema keys aggregates ih =>
    exact ih.bind fun _ _ hbs => aggregateBatches_equiv hbs schema keys aggregates

end Plan

end Physical

end ColumnarQuery
