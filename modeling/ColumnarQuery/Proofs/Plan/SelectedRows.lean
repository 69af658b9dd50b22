import ColumnarQuery.Proofs.Expr.Predicate
import ColumnarQuery.Proofs.Source.Rows

/-!
# What a selection keeps

`Batch.SelectedBy` : a batch holds the rows of another one at which a column is true. That is what a selection makes of a
batch, with or without columns (`Batch.selectedBy_retain`).
-/

namespace ColumnarQuery

theorem Column.exists_filterMask_filterMask {v : Column} {mask inner m : List Bool} (hmask : mask.length = v.length)
    (hinner : inner.length = mask.count true) (hm : Refines mask inner m) :
    ∃ once twice both, v.filterMask mask = .ok once ∧ once.filterMask inner = .ok twice ∧ v.filterMask m = .ok both ∧
      twice.type = both.type ∧ twice.toList = both.toList := by
  have honce : (v.retain mask).length = inner.length := by rw [length_retain_of_length hmask.symm, hinner]
  have hboth : v.length = m.length := by rw [hm.length, hmask]
  obtain rfl := (refines_iff hinner).1 hm
  refine ⟨_, _, _, filterMask_of_length hmask.symm, filterMask_of_length honce, filterMask_of_length hboth, ?_, ?_⟩
  · rw [type_retain, type_retain, type_retain]
  · rw [toList_retain, toList_retain, toList_retain, retain_refined]

namespace Batch

/-- A batch holds the rows of another one at which a column is true. Its columns are filtered one by one; its rows are
counted without them. -/
structure SelectedBy (b : Batch) (selection : Column) (out : Batch) : Prop where
  schema : out.schema = b.schema
  rowCount : out.rowCount = selection.truths.count true
  columns : b.columns.mapM (·.filter selection) = .ok out.columns
  rows : out.rows = picked selection.truths b.rows

theorem selectedBy_retain {b : Batch} {selection : Column} (ht : selection.type = .boolean)
    (hl : selection.length = b.rowCount) : SelectedBy b selection (b.retain selection.truths) where
  schema := rfl
  rowCount := by
    show (selection.truths.take b.rowCount).count true = _
    rw [List.take_of_length_le (Nat.le_of_eq (by rw [Column.length_truths, hl]))]
  columns := mapM_eq_ok_map fun c hc => Column.filter_of_boolean ht (by rw [b.sized c hc, hl])
  rows := rows_retain_eq_picked _ b

end Batch

namespace Physical.Plan

/-- A selection keeps the values of a column at which it is true, in their order, or is refused for its type or its
length. A second selection of what was kept is one selection of all. Executed on a plan it returns a batch for each
batch of the plan, with the rows at which the predicate is true. -/
theorem filter_keeps_selected :
    (∀ (v s : Column), (∀ e, v.filter s = .error e ↔
        s.type ≠ .boolean ∧ e = .typeMismatch .boolean s.type ∨
        (s.type = .boolean ∧ v.length ≠ s.length) ∧ e = .lengthMismatch v.length s.length) ∧
      (s.type = .boolean → v.length = s.length → ∃ kept, v.filter s = .ok kept ∧ kept.type = v.type ∧
        kept.toList = picked s.truths v.toList ∧ kept.length = s.truths.count true)) ∧
    (∀ (v : Column) (mask inner : List Bool), mask.length = v.length → inner.length = mask.count true →
      (∃! m, Refines mask inner m) ∧
      ∀ m, Refines mask inner m → ∃ once twice both, v.filterMask mask = .ok once ∧
        once.filterMask inner = .ok twice ∧ v.filterMask m = .ok both ∧ twice.type = both.type ∧
        twice.toList = both.toList) ∧
    ∀ (input : Plan) (predicate : Expr) (bs : List Batch), input.execute = .ok bs →
      ((∃ outs, (filter input predicate).execute = .ok outs) ↔
        ∀ b ∈ bs, ∃ selection, predicate.evaluate b = .ok selection ∧ selection.type = .boolean) ∧
      ∀ outs, (filter input predicate).execute = .ok outs →
        List.Forall₂ (fun b out => ∃ selection, predicate.evaluate b = .ok selection ∧ selection.type = .boolean ∧
          b.SelectedBy selection out) bs outs := by
  refine ⟨fun v s => ⟨fun e => Column.filter_eq_error_iff, fun hs hl => ?_⟩, fun v mask inner hmask hinner => ?_,
    fun input predicate bs hbs => ?_⟩
  · refine ⟨_, Column.filter_of_boolean hs hl, Column.type_retain _ v, Column.toList_retain_eq_picked _, ?_⟩
    exact Column.length_retain_of_length (by rw [Column.length_truths, hl])
  · exact ⟨⟨_, refines_refined hinner, fun m => (refines_iff hinner).1⟩,
      fun m => Column.exists_filterMask_filterMask hmask hinner⟩
  · have hexecute : (filter input predicate).execute = bs.mapM (filterBatch predicate) := by
      rw [execute, hbs, ok_bind]
    rw [hexecute]
    refine ⟨?_, fun outs houts => (mapM_eq_ok_iff.1 houts).imp fun b out hout => ?_⟩
    · rw [exists_mapM_eq_ok_iff]
      exact forall₂_congr fun b _ => exists_filterBatch_iff
    · obtain ⟨selection, hselection, htype, rfl⟩ := filterBatch_eq_ok_iff.1 hout
      exact ⟨selection, hselection, htype, Batch.selectedBy_retain htype (Expr.evaluate_eq_ok hselection).2.1⟩

/-- A selection that keeps nothing of a column; the last of the first and third values; and the deliveries without their
columns, whose rows are kept all the same. -/
theorem filter_keeps_selected_columnless :
    let amounts : Column := .array (.int .w8) #[.int .w8 1, .int .w8 2, .int .w8 3] (by decide)
    let input : Plan := .project (.scan (Table.deliveries 2).source []) .empty []
    (∃ kept, amounts.filter (.constant (.boolean false) 3) = .ok kept ∧ kept.type = .int .w8 ∧ kept.toList = []) ∧
    (∃ once twice both, amounts.filterMask [true, false, true] = .ok once ∧ once.filterMask [false, true] = .ok twice ∧
      amounts.filterMask [false, false, true] = .ok both ∧ twice.toList = both.toList) ∧
    ∃ bs outs, input.execute = .ok bs ∧ (filter input (.literal (.boolean true))).execute = .ok outs ∧
      outs.map Batch.columns = [[], []] ∧ outs.map Batch.rows = [[[], []], [[]]] := by
  intro amounts input
  obtain ⟨hfilter, htwice, hplan⟩ := filter_keeps_selected
  obtain ⟨kept, hkept, htype, hvalues, -⟩ := (hfilter amounts (.constant (.boolean false) 3)).2 rfl rfl
  obtain ⟨-, hone⟩ := htwice amounts [true, false, true] [false, true] rfl rfl
  obtain ⟨once, twice, both, honce, hinner, hboth, -, heq⟩ := hone [false, false, true] (refines_refined rfl)
  obtain ⟨hexists, -⟩ := hplan input (.literal (.boolean true)) _ rfl
  obtain ⟨outs, houts⟩ := hexists.2 fun b _ => ⟨_, rfl, rfl⟩
  refine ⟨⟨kept, hkept, htype, hvalues⟩, ⟨once, twice, both, honce, hinner, hboth, heq⟩, _, outs, rfl, houts, ?_⟩
  cases houts
  exact ⟨rfl, rfl⟩

end Physical.Plan

end ColumnarQuery
