import ColumnarQuery.Physical.Expr
import ColumnarQuery.Proofs.Batch.Rows
import ColumnarQuery.Proofs.Correspondence

/-!
# Columns and batches up to storage

`Column.Equiv` and `Batch.Equiv` relate what has the same values, however it is stored. What is computed from columns or
batches that are so related is again related, or fails with the same error.
-/

namespace ColumnarQuery

/-! ## Columns -/

/-- Two columns that are read alike: of one type and length, with the same value at each index. How they are stored
does not matter. -/
structure Column.Equiv (c d : Column) : Prop where
  type : c.type = d.type
  length : c.length = d.length
  valueAt : ∀ i < c.length, c.valueAt i = d.valueAt i

namespace Column

variable {c d l l' r r' : Column}

theorem equiv_iff : c.Equiv d ↔ c.type = d.type ∧ c.toList = d.toList := by
  constructor
  · rintro ⟨htype, hlength, hvalues⟩
    refine ⟨htype, List.ext_getElem (by simp [hlength]) fun i hi hi' => ?_⟩
    have hv := hvalues i (length_toList c ▸ hi)
    rw [valueAt_eq_ok_iff.2 (List.getElem?_eq_getElem hi), eq_comm, valueAt_eq_ok_iff] at hv
    rw [List.getElem?_eq_getElem hi', Option.some.injEq] at hv
    exact hv.symm
  · rintro ⟨htype, hlist⟩
    have hlength : c.length = d.length := by rw [← length_toList, hlist, length_toList]
    refine ⟨htype, hlength, fun i _ => ?_⟩
    rw [Column.valueAt, Column.valueAt, get?_eq_getElem?_toList, get?_eq_getElem?_toList, hlist, hlength]

namespace Equiv

theorem refl (c : Column) : c.Equiv c :=
  ⟨rfl, rfl, fun _ _ => rfl⟩

/-- Past the end both fail with the same error. -/
theorem valueAt_eq (h : c.Equiv d) (i : Nat) : c.valueAt i = d.valueAt i := by
  obtain ⟨-, hlist⟩ := equiv_iff.1 h
  rw [Column.valueAt, Column.valueAt, get?_eq_getElem?_toList, get?_eq_getElem?_toList, hlist, h.length]

theorem mask_eq (h : c.Equiv d) : c.mask = d.mask := by
  obtain ⟨htype, hlist⟩ := equiv_iff.1 h
  rw [mask, mask, htype, hlist]

theorem apply_eq (hl : l.Equiv l') (hr : r.Equiv r') (op : BinaryOp) : l.apply op r = l'.apply op r' := by
  have hzip : zipWith (Value.apply op) l r = zipWith (Value.apply op) l' r' := by
    unfold zipWith
    simp only [hl.length, hl.valueAt_eq, hr.valueAt_eq]
  rw [apply, apply, hl.length, hr.length, hl.type, hr.type, hzip]

end Equiv

end Column

theorem mapM_valueAt_congr {cs ds : List Column} (h : List.Forall₂ Column.Equiv cs ds) (i : Nat) :
    cs.mapM (·.valueAt i) = ds.mapM (·.valueAt i) := by
  induction h with
  | nil => rfl
  | cons hcd _ ih => rw [List.mapM_cons, List.mapM_cons, hcd.valueAt_eq, ih]

/-! ## Batches -/

/-- Two batches that are read alike: of one schema and number of rows, with columns that are. -/
structure Batch.Equiv (b b' : Batch) : Prop where
  schema : b.schema = b'.schema
  rowCount : b.rowCount = b'.rowCount
  columns : List.Forall₂ Column.Equiv b.columns b'.columns

namespace Batch

variable {b b' : Batch}

theorem map_toList_congr {cs ds : List Column} (h : List.Forall₂ Column.Equiv cs ds) :
    cs.map Column.toList = ds.map Column.toList := by
  rw [← List.forall₂_eq_eq_eq, List.forall₂_map_left_iff, List.forall₂_map_right_iff]
  exact h.imp fun _ _ hcd => (Column.equiv_iff.1 hcd).2

/-- The rows tell the columns, but for their storage. -/
theorem equiv_iff : b.Equiv b' ↔ b.schema = b'.schema ∧ b.rows = b'.rows := by
  constructor
  · rintro ⟨hschema, hn, hcolumns⟩
    exact ⟨hschema, by rw [rows, rows, hn, map_toList_congr hcolumns]⟩
  · rintro ⟨hschema, hrows⟩
    have hn : b.rowCount = b'.rowCount := by rw [← length_rows, hrows, length_rows]
    have htypes := b.typed.trans (hschema ▸ b'.typed.symm)
    rw [← List.forall₂_eq_eq_eq, List.forall₂_map_left_iff, List.forall₂_map_right_iff] at htypes
    obtain ⟨hl, htype⟩ := List.forall₂_iff_get.1 htypes
    refine ⟨hschema, hn, List.forall₂_iff_get.2 ⟨hl, fun j h₁ h₂ => Column.equiv_iff.2 ⟨htype j h₁ h₂, ?_⟩⟩⟩
    have hc : b.column j = .ok b.columns[j] := by rw [column, List.getElem?_eq_getElem h₁]
    have hd : b'.column j = .ok b'.columns[j] := by rw [column, List.getElem?_eq_getElem h₂]
    have hleft := forall₂_of_column_eq_ok hc
    rw [hrows] at hleft
    exact Relator.RightUnique.forall₂ (fun _ _ _ hv hw => Option.some.inj (hv.symm.trans hw)) hleft
      (forall₂_of_column_eq_ok hd)

theorem Equiv.refl (b : Batch) : b.Equiv b :=
  equiv_iff.2 ⟨rfl, rfl⟩

theorem Equiv.symm (h : b.Equiv b') : b'.Equiv b := by
  obtain ⟨hschema, hrows⟩ := equiv_iff.1 h
  exact equiv_iff.2 ⟨hschema.symm, hrows.symm⟩

theorem Equiv.trans {b'' : Batch} (h : b.Equiv b') (h' : b'.Equiv b'') : b.Equiv b'' := by
  obtain ⟨hschema, hrows⟩ := equiv_iff.1 h
  obtain ⟨hschema', hrows'⟩ := equiv_iff.1 h'
  exact equiv_iff.2 ⟨hschema.trans hschema', hrows.trans hrows'⟩

/-! ## Operations -/

theorem Equiv.column (h : b.Equiv b') (i : Nat) : Corresponds Column.Equiv (b.column i) (b'.column i) := by
  obtain ⟨hl, hget⟩ := List.forall₂_iff_get.1 h.columns
  rw [Batch.column, Batch.column, hl]
  by_cases hi : i < b.columns.length
  · rw [List.getElem?_eq_getElem hi, List.getElem?_eq_getElem (hl ▸ hi)]
    exact .ok (hget i hi (hl ▸ hi))
  · rw [List.getElem?_eq_none (by omega), List.getElem?_eq_none (by omega)]
    exact .error

theorem Equiv.retain (h : b.Equiv b') (mask : List Bool) : (b.retain mask).Equiv (b'.retain mask) := by
  obtain ⟨hschema, hrows⟩ := equiv_iff.1 h
  exact equiv_iff.2 ⟨hschema, by rw [rows_retain, rows_retain, hrows]⟩

theorem Equiv.filter {c d : Column} (h : b.Equiv b') (hcd : c.Equiv d) :
    Corresponds Batch.Equiv (b.filter c) (b'.filter d) := by
  rw [Batch.filter, Batch.filter, hcd.length, h.rowCount, hcd.mask_eq]
  split
  · exact (Corresponds.refl (fun mask => (rfl : mask = mask)) _).bind fun m m' hm => hm ▸ .ok (h.retain m)
  · exact .error

/-- What keeps columns from being a batch is seen without their storage. -/
theorem findSome?_misfit?_congr {n : Nat} {cs ds : List Column} (h : List.Forall₂ Column.Equiv cs ds)
    (fields : List Field) :
    (fields.zip cs).findSome? (fun p => misfit? n p.1 p.2) = (fields.zip ds).findSome? fun p => misfit? n p.1 p.2 := by
  induction h generalizing fields with
  | nil => rfl
  | @cons c d cs ds hcd _ ih =>
    cases fields with
    | nil => rfl
    | cons f fields =>
      have hone : misfit? n f c = misfit? n f d := by rw [misfit?, misfit?, hcd.type, hcd.length]
      rw [List.zip_cons_cons, List.zip_cons_cons, List.findSome?_cons, List.findSome?_cons, hone, ih]

theorem ofColumns_congr {s : Schema} {n : Nat} {cs ds : List Column} (h : List.Forall₂ Column.Equiv cs ds) :
    Corresponds Batch.Equiv (ofColumns s cs n) (ofColumns s ds n) := by
  have hl := h.length_eq
  have hmisfit := findSome?_misfit?_congr (n := n) h s.fields
  unfold ofColumns
  by_cases hsize : cs.length = s.size
  · rw [dif_pos hsize, dif_pos (hl ▸ hsize)]
    split <;> split
    · rename_i e hcs e' hds
      rw [hmisfit, hds, Option.some.injEq] at hcs
      exact hcs ▸ .error
    · rename_i e hcs hds
      rw [hmisfit, hds] at hcs
      cases hcs
    · rename_i hcs e hds
      rw [hmisfit, hds] at hcs
      cases hcs
    · exact .ok ⟨rfl, rfl, h⟩
  · rw [dif_neg hsize, dif_neg (hl ▸ hsize), hl]
    exact .error

end Batch

theorem Physical.Expr.evaluate_equiv {b b' : Batch} (h : b.Equiv b') (e : Expr) :
    Corresponds Column.Equiv (e.evaluate b) (e.evaluate b') := by
  induction e with
  | column i => exact h.column i
  | literal v =>
    rw [evaluate, evaluate, h.rowCount]
    exact .ok (.refl _)
  | binary op left right ihl ihr =>
    refine ihl.bind fun l l' hl => ihr.bind fun r r' hr => ?_
    rw [hl.apply_eq hr]
    exact .refl Column.Equiv.refl _

end ColumnarQuery
