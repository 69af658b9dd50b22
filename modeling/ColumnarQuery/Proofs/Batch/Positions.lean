import ColumnarQuery.Proofs.Batch.Storage
import ColumnarQuery.Proofs.Column.Mask
import ColumnarQuery.Proofs.Column.Operation

/-!
# Filtering by index

`Batch.filterByIndex` looks up each kept value by its position and stores it again. No look-up is out of bounds, and the
outcome is that of `Batch.filter` up to storage.
-/

namespace ColumnarQuery

def positions (mask : List Bool) : List Nat :=
  (mask.zipIdx.filter Prod.fst).map Prod.snd

theorem positions_eq_retain (mask : List Bool) : positions mask = retain mask (List.range mask.length) := by
  have hfrom : ∀ k, ((mask.zipIdx k).filter Prod.fst).map Prod.snd = retain mask (List.range' k mask.length) := by
    induction mask with
    | nil => exact fun k => rfl
    | cons b mask ih =>
      intro k
      cases b <;> simp [List.zipIdx_cons, List.range'_succ, retain, ih]
  rw [positions, hfrom, List.range_eq_range']

theorem mapM_positions {α : Type} {f : Nat → Except Error α} {mask : List Bool} {xs : List α}
    (h : (List.range mask.length).mapM f = .ok xs) : (positions mask).mapM f = .ok (retain mask xs) := by
  rw [positions_eq_retain]
  exact mapM_retain h mask

namespace Column

def maskByIndex (c : Column) : Except Error (List Bool) :=
  if c.type = .boolean then tabulate c.length fun i => do return (← c.valueAt i).boolean? = some true
  else .error (.typeMismatch .boolean c.type)

/-- The values at which a mask is true, each of them looked up, as a column that stores them one by one. -/
def filterByIndex (c : Column) (mask : List Bool) : Except Error Column :=
  if c.length = mask.length then do ofValues c.type (← (positions mask).mapM c.valueAt)
  else .error (.lengthMismatch c.length mask.length)

theorem mapM_valueAt_range (c : Column) : (List.range c.length).mapM c.valueAt = .ok c.toList := by
  rw [mapM_eq_ok_iff, List.forall₂_iff_get]
  refine ⟨by simp, fun i h₁ h₂ => ?_⟩
  simpa using valueAt_of_lt h₂

theorem maskByIndex_eq (c : Column) : c.maskByIndex = c.mask := by
  unfold maskByIndex mask
  split
  · have hread : (tabulate c.length fun i => do return decide ((← c.valueAt i).boolean? = some true)) =
        c.toList.mapM fun v => .ok (decide (v.boolean? = some true)) := by
      rw [tabulate, ← length_toList]
      refine tabulateFrom_eq_mapM fun i hi => ?_
      rw [Nat.zero_add, valueAt_of_lt hi, ok_bind, pure_eq_ok]
    rw [hread, mapM_eq_ok_map fun _ _ => rfl]
  · rfl

theorem filterByIndex_corresponds (c : Column) (mask : List Bool) :
    Corresponds Equiv (c.filterByIndex mask) (c.filterMask mask) := by
  unfold filterByIndex filterMask
  split
  · rename_i hl
    have hvalues : (positions mask).mapM c.valueAt = .ok (c.retain mask).toList := by
      rw [toList_retain]
      exact mapM_positions (hl ▸ c.mapM_valueAt_range)
    obtain ⟨d, hd⟩ := exists_ofValues fun v (hv : v ∈ (c.retain mask).toList) => type_of_mem_toList hv
    rw [type_retain] at hd
    obtain ⟨htype, hlist⟩ := ofValues_eq_ok hd
    rw [hvalues, ok_bind, hd]
    exact .ok (equiv_iff.2 ⟨by rw [htype, type_retain], hlist⟩)
  · exact .error

end Column

namespace Batch

/-- The rows that a boolean column of their number keeps, column by column. The columns must make a batch of as many rows
as were kept. -/
def filterByIndex (b : Batch) (selection : Column) : Except Error Batch := do
  if selection.length = b.rowCount then do
    let mask ← selection.maskByIndex
    ofColumns b.schema (← b.columns.mapM (·.filterByIndex mask)) (mask.count true)
  else .error (.lengthMismatch b.rowCount selection.length)

/-- The kept columns make the batch that the mask keeps, up to storage. -/
theorem filterByIndex_corresponds (b : Batch) (selection : Column) :
    Corresponds Equiv (b.filterByIndex selection) (b.filter selection) := by
  unfold filterByIndex filter
  split
  · rename_i hn
    rw [Column.maskByIndex_eq]
    by_cases hs : selection.type = .boolean
    · have hkept : b.columns.mapM (·.filterMask selection.truths) = .ok (b.retain selection.truths).columns :=
        mapM_eq_ok_map fun c hc => Column.filterMask_of_length (by rw [b.sized c hc, Column.length_truths, hn])
      have hcount : (b.retain selection.truths).rowCount = selection.truths.count true := by
        show (selection.truths.take b.rowCount).count true = _
        rw [List.take_of_length_le (Nat.le_of_eq (by rw [Column.length_truths, hn]))]
      have hbatch : ofColumns b.schema (b.retain selection.truths).columns (selection.truths.count true) =
          .ok (b.retain selection.truths) := ofColumns_eq_ok_iff.2 ⟨rfl, rfl, hcount⟩
      have hcolumns : Corresponds (List.Forall₂ Column.Equiv) (b.columns.mapM (·.filterByIndex selection.truths))
          (b.columns.mapM (·.filterMask selection.truths)) := .mapM_same fun c => c.filterByIndex_corresponds _
      have hmade := hcolumns.bind fun _ _ => ofColumns_congr (s := b.schema) (n := selection.truths.count true)
      rw [hkept, ok_bind, hbatch] at hmade
      rw [Column.mask_of_boolean hs, ok_bind, ok_bind, pure_eq_ok]
      exact hmade
    · rw [Column.mask, if_neg hs]
      exact .error
  · exact .error

end Batch

end ColumnarQuery
