import ColumnarQuery.Batch
import ColumnarQuery.Proofs.Traversal

/-!
# The rows of a batch

`Batch.rows` are the rows of a batch, each a value per column. A mask keeps of the rows what it keeps of each column
(`Batch.rows_retain`), and `Batch.ofColumns_eq_ok_iff` tells when columns make a batch.
-/

namespace ColumnarQuery

abbrev Row := List Value

/-! ## Rows of columns -/

theorem Column.valueAt_eq_ok_iff {c : Column} {i : Nat} {v : Value} : c.valueAt i = .ok v ↔ c.toList[i]? = some v := by
  rw [valueAt, get?_eq_getElem?_toList]
  cases c.toList[i]? <;> simp

theorem length_of_mem_map_toList {columns : List Column} {n : Nat} (h : ∀ c ∈ columns, c.length = n) :
    ∀ vs ∈ columns.map Column.toList, vs.length = n := by
  intro vs hvs
  obtain ⟨c, hc, rfl⟩ := List.mem_map.1 hvs
  rw [Column.length_toList, h c hc]

theorem mapM_valueAt_eq_ok_iff {columns : List Column} {n i : Nat} {row : Row} (h : ∀ c ∈ columns, c.length = n)
    (hi : i < n) :
    columns.mapM (·.valueAt i) = .ok row ↔ (rowsOf n (columns.map Column.toList))[i]? = some row := by
  rw [getElem?_rowsOf (length_of_mem_map_toList h) hi, mapM_eq_ok_iff, Option.some.injEq]
  induction columns generalizing row with
  | nil => rw [List.forall₂_nil_left_iff, List.map_nil, List.filterMap_nil, eq_comm]
  | cons c cs ih =>
    rw [List.forall_mem_cons] at h
    have hc : i < c.toList.length := by rw [Column.length_toList, h.1]; exact hi
    rw [List.forall₂_cons_left_iff, List.map_cons, List.filterMap_cons, List.getElem?_eq_getElem hc]
    simp only [ih h.2]
    simp only [Column.valueAt_eq_ok_iff, List.getElem?_eq_getElem hc, Option.some.injEq]
    constructor
    · rintro ⟨_, _, rfl, rfl, rfl⟩
      rfl
    · rintro rfl
      exact ⟨_, _, rfl, rfl, rfl⟩

theorem types_of_mem_rowsOf {columns : List Column} {n : Nat} {row : Row}
    (h : row ∈ rowsOf n (columns.map Column.toList)) : row.map Value.type = columns.map Column.type := by
  induction columns generalizing row with
  | nil => rw [List.eq_of_mem_replicate h]; rfl
  | cons c cs ih =>
    rw [List.map_cons, rowsOf, ← List.map_uncurry_zip_eq_zipWith] at h
    obtain ⟨⟨v, vs⟩, hp, rfl⟩ := List.mem_map.1 h
    obtain ⟨hv, hvs⟩ := List.of_mem_zip hp
    rw [Function.uncurry_apply_pair, List.map_cons, List.map_cons, Column.type_of_mem_toList hv, ih hvs]

/-- The column at a position holds the values at that position of the rows. -/
theorem forall₂_getElem?_rowsOf {α : Type} {n j : Nat} {columns : List (List α)} {column : List α}
    (h : ∀ c ∈ columns, c.length = n) (hj : columns[j]? = some column) :
    List.Forall₂ (fun row v => row[j]? = some v) (rowsOf n columns) column := by
  induction columns generalizing j with
  | nil => cases hj
  | cons c cs ih =>
    rw [List.forall_mem_cons] at h
    have hl : c.length = (rowsOf n cs).length := by rw [h.1, length_rowsOf h.2]
    rw [rowsOf]
    cases j with
    | zero =>
      rw [List.getElem?_cons_zero, Option.some.injEq] at hj
      subst hj
      rw [List.forall₂_iff_get]
      refine ⟨by rw [List.length_zipWith, ← hl, Nat.min_self], fun i _ _ => ?_⟩
      simp
    | succ j =>
      rw [List.getElem?_cons_succ] at hj
      have hcs := List.forall₂_iff_get.1 (ih h.2 hj)
      rw [List.forall₂_iff_get]
      refine ⟨by rw [List.length_zipWith, hl, Nat.min_self, hcs.1], fun i h₁ h₂ => ?_⟩
      simpa using hcs.2 i (hcs.1 ▸ h₂) h₂

/-! ## Masks -/

theorem retain_zipWith {α β γ : Type} (f : α → β → γ) (mask : List Bool) {xs : List α} {ys : List β}
    (h : xs.length = ys.length) :
    retain mask (List.zipWith f xs ys) = List.zipWith f (retain mask xs) (retain mask ys) := by
  induction mask generalizing xs ys with
  | nil => cases xs <;> cases ys <;> rfl
  | cons b mask ih =>
    cases xs with
    | nil => cases ys <;> cases b <;> rfl
    | cons x xs =>
      cases ys with
      | nil => cases h
      | cons y ys =>
        have hl : xs.length = ys.length := Nat.succ.inj h
        cases b with
        | true => rw [List.zipWith_cons_cons, retain, retain, retain, ih hl, List.zipWith_cons_cons]
        | false => rw [List.zipWith_cons_cons, retain, retain, retain, ih hl]

theorem retain_nil {α : Type} (mask : List Bool) : retain mask ([] : List α) = [] := by
  cases mask with
  | nil => rfl
  | cons b mask => cases b <;> rfl

theorem retain_map {α β : Type} (f : α → β) (mask : List Bool) (xs : List α) :
    retain mask (xs.map f) = (retain mask xs).map f := by
  induction mask generalizing xs with
  | nil => cases xs <;> rfl
  | cons b mask ih =>
    cases xs with
    | nil => rw [List.map_nil, retain_nil, retain_nil, List.map_nil]
    | cons x xs =>
      cases b with
      | true => rw [List.map_cons, retain, retain, ih, List.map_cons]
      | false => rw [List.map_cons, retain, retain, ih]

/-- A second mask on what the first one kept is the second mask on all, where the first is true. -/
theorem retain_retain {α : Type} (mask keep : List Bool) (xs : List α) :
    retain (retain mask keep) (retain mask xs) = retain (List.zipWith (· && ·) mask keep) xs := by
  induction mask generalizing keep xs with
  | nil => rfl
  | cons b mask ih =>
    cases keep with
    | nil => rw [List.zipWith_nil_right, retain_nil]; rfl
    | cons k keep =>
      cases xs with
      | nil => rw [retain_nil, retain_nil, retain_nil]
      | cons x xs => cases b <;> cases k <;> simp [retain, ih]

/-- A traversal of some of the elements has the answers at their places. -/
theorem mapM_retain {ε α β : Type} {f : α → Except ε β} {xs : List α} {ys : List β} (h : xs.mapM f = .ok ys)
    (mask : List Bool) : (retain mask xs).mapM f = .ok (retain mask ys) := by
  rw [mapM_eq_ok_iff] at h ⊢
  induction h generalizing mask with
  | nil =>
    rw [retain_nil, retain_nil]
    exact .nil
  | cons hxy _ ih =>
    cases mask with
    | nil => exact .nil
    | cons b mask =>
      cases b with
      | true => exact .cons hxy (ih mask)
      | false => exact ih mask

theorem rowsOf_retain (mask : List Bool) {n : Nat} {columns : List Column} (h : ∀ c ∈ columns, c.length = n) :
    rowsOf ((mask.take n).count true) ((columns.map (Column.retain mask)).map Column.toList) =
      retain mask (rowsOf n (columns.map Column.toList)) := by
  induction columns with
  | nil => rw [List.map_nil, List.map_nil, rowsOf, rowsOf, retain_replicate]
  | cons c cs ih =>
    rw [List.forall_mem_cons] at h
    have hl : c.toList.length = (rowsOf n (cs.map Column.toList)).length := by
      rw [Column.length_toList, length_rowsOf (length_of_mem_map_toList h.2), h.1]
    rw [List.map_cons, List.map_cons, rowsOf, ih h.2, List.map_cons, rowsOf, retain_zipWith _ _ hl,
      Column.toList_retain]

namespace Batch

/-! ## Rows of a batch -/

def rows (b : Batch) : List Row :=
  rowsOf b.rowCount (b.columns.map Column.toList)

@[simp] theorem length_rows (b : Batch) : b.rows.length = b.rowCount :=
  length_rowsOf (length_of_mem_map_toList b.sized)

/-- The rows are what is read at the indices below their number. -/
theorem row_eq_ok_iff {b : Batch} {i : Nat} {row : Row} : b.row i = .ok row ↔ b.rows[i]? = some row := by
  unfold Batch.row
  split
  · rename_i hi
    rw [mapM_valueAt_eq_ok_iff b.sized hi, rows]
  · rename_i hi
    rw [List.getElem?_eq_none (by rw [length_rows]; omega)]
    simp

theorem types_of_mem_rows {b : Batch} {row : Row} (h : row ∈ b.rows) : row.map Value.type = b.schema.types := by
  rw [types_of_mem_rowsOf h, b.typed]

theorem length_of_mem_rows {b : Batch} {row : Row} (h : row ∈ b.rows) : row.length = b.schema.size := by
  have := congrArg List.length (types_of_mem_rows h)
  rwa [List.length_map, Schema.types, List.length_map] at this

theorem rows_retain (mask : List Bool) (b : Batch) : (b.retain mask).rows = ColumnarQuery.retain mask b.rows :=
  rowsOf_retain mask b.sized

theorem forall₂_of_column_eq_ok {b : Batch} {j : Nat} {c : Column} (h : b.column j = .ok c) :
    List.Forall₂ (fun row v => row[j]? = some v) b.rows c.toList := by
  unfold Batch.column at h
  split at h
  · rename_i hj
    cases h
    refine forall₂_getElem?_rowsOf (length_of_mem_map_toList b.sized) ?_
    rw [List.getElem?_map, hj, Option.map_some]
  · cases h

/-! ## Making a batch -/

theorem ofColumns_eq_ok_iff {s : Schema} {columns : List Column} {n : Nat} {b : Batch} :
    ofColumns s columns n = .ok b ↔ b.schema = s ∧ b.columns = columns ∧ b.rowCount = n := by
  constructor
  · intro h
    unfold ofColumns at h
    split at h
    · split at h
      · cases h
      · cases h
        exact ⟨rfl, rfl, rfl⟩
    · cases h
  · rintro ⟨rfl, rfl, rfl⟩
    have hl : b.columns.length = b.schema.size := by
      have := congrArg List.length b.typed
      rwa [List.length_map, Schema.types, List.length_map] at this
    have hfit : (b.schema.fields.zip b.columns).findSome? (fun p => misfit? b.rowCount p.1 p.2) = none := by
      rw [List.findSome?_eq_none_iff]
      rintro ⟨f, c⟩ hp
      rw [misfit?_eq_none_iff]
      refine ⟨?_, b.sized c (List.of_mem_zip hp).2⟩
      have ht : List.Forall₂ (fun f c => c.type = f.type) b.schema.fields b.columns := by
        have := b.typed
        rw [Schema.types, ← List.forall₂_eq_eq_eq, List.forall₂_map_left_iff, List.forall₂_map_right_iff] at this
        exact this.flip
      exact List.forall₂_zip ht hp
    unfold ofColumns
    rw [dif_pos hl]
    split
    · rename_i e he
      rw [hfit] at he
      cases he
    · rfl

theorem exists_ofColumns {s : Schema} {columns : List Column} {n : Nat} (ht : columns.map Column.type = s.types)
    (hn : ∀ c ∈ columns, c.length = n) : ∃ b, ofColumns s columns n = .ok b :=
  ⟨⟨s, columns, n, ht, hn⟩, ofColumns_eq_ok_iff.2 ⟨rfl, rfl, rfl⟩⟩

theorem types_of_forall₂_zipIdx {s : Schema} {columns : List Column}
    (h : List.Forall₂ (fun p c => c.type = p.1.type) s.fields.zipIdx columns) : columns.map Column.type = s.types := by
  have hfst : s.fields.zipIdx.map (fun p => p.1.type) = s.types := by
    rw [Schema.types, ← List.zipIdx_map_fst 0 s.fields, List.map_map, List.zipIdx_map_fst]
    rfl
  rw [← hfst, ← List.forall₂_eq_eq_eq, List.forall₂_map_left_iff, List.forall₂_map_right_iff]
  exact h.flip

/-! ## Rows of batches -/

def allRows (bs : List Batch) : List Row :=
  bs.flatMap rows

@[simp] theorem allRows_nil : allRows [] = [] := rfl

@[simp] theorem allRows_cons (b : Batch) (bs : List Batch) : allRows (b :: bs) = b.rows ++ allRows bs := rfl

theorem exists_of_mem_allRows {bs : List Batch} {row : Row} (h : row ∈ allRows bs) : ∃ b ∈ bs, row ∈ b.rows :=
  List.mem_flatMap.1 h

end Batch

end ColumnarQuery
