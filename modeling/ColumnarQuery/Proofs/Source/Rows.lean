import ColumnarQuery.Proofs.Source.Scan
import Mathlib.Algebra.Order.Floor.Div

/-!
# Tables of given rows

A batch or a table of given rows holds these rows, and there is one if every row has the types of the fields. Tables of the
same rows with any two batch sizes are the same but for where they are cut (`Table.sameRows_ofRows`).
-/

namespace ColumnarQuery

/-! ## Pieces of a list -/

section Pieces
variable {α : Type} {size i : Nat} {xs piece : List α}

theorem flatten_map_range_chunk (size : Nat) (xs : List α) (k : Nat) :
    ((List.range k).map fun i => (xs.drop (i * size)).take size).flatten = xs.take (k * size) := by
  induction k with
  | zero => simp
  | succ k ih =>
    rw [List.range_succ, List.map_append, List.flatten_append, ih, List.map_singleton, List.flatten_singleton,
      Nat.succ_mul, List.take_add]

theorem length_chunks (size : Nat) (xs : List α) : (chunks size xs).length = xs.length ⌈/⌉ size := by
  rw [chunks, List.length_map, List.length_range, Nat.ceilDiv_eq_add_pred_div]

theorem flatten_chunks (hs : 0 < size) (xs : List α) : (chunks size xs).flatten = xs := by
  have hcover : xs.length ≤ (xs.length + size - 1) / size * size := by
    rw [← Nat.ceilDiv_eq_add_pred_div, Nat.mul_comm]
    exact le_smul_ceilDiv hs
  rw [chunks, flatten_map_range_chunk, List.take_of_length_le hcover]

theorem mem_of_mem_chunks {x : α} (hs : 0 < size) (h : piece ∈ chunks size xs) (hx : x ∈ piece) : x ∈ xs := by
  rw [← flatten_chunks hs xs]
  exact List.mem_flatten.2 ⟨piece, h, hx⟩

theorem lt_length_chunks_iff (hs : 0 < size) : i < (chunks size xs).length ↔ size * i < xs.length := by
  rw [length_chunks, ← not_le, ceilDiv_le_iff_le_mul hs, not_le]

theorem chunks_eq_nil_iff (hs : 0 < size) (xs : List α) : chunks size xs = [] ↔ xs = [] := by
  rw [← not_iff_not, ← ne_eq, ← ne_eq, ← List.length_pos_iff, ← List.length_pos_iff, lt_length_chunks_iff hs,
    Nat.mul_zero]

theorem length_of_getElem?_chunks (h : (chunks size xs)[i]? = some piece) :
    piece.length = min size (xs.length - size * i) := by
  rw [chunks, List.getElem?_map, Option.map_eq_some_iff] at h
  obtain ⟨j, hj, rfl⟩ := h
  obtain ⟨hi, rfl⟩ := List.getElem?_eq_some_iff.1 hj
  rw [List.getElem_range, List.length_take, List.length_drop, Nat.mul_comm]

/-- All pieces but the last are full, and none is empty. -/
theorem length_piece (hs : 0 < size) (h : (chunks size xs)[i]? = some piece) :
    (i + 1 < (chunks size xs).length → piece.length = size) ∧ 1 ≤ piece.length ∧ piece.length ≤ size := by
  have hlength := length_of_getElem?_chunks h
  obtain ⟨hi, -⟩ := List.getElem?_eq_some_iff.1 h
  rw [lt_length_chunks_iff hs] at hi
  refine ⟨fun hnext => ?_, by omega, by omega⟩
  rw [lt_length_chunks_iff hs, Nat.mul_succ] at hnext
  omega

end Pieces

/-! ## Batches of given rows -/

namespace Batch

theorem filterMap_getElem?_of_mapM_onRow {rows : List Row} {i : Nat} {vs : List Value}
    (h : (rows.mapM fun row => (Physical.Expr.column i).onRow row) = .ok vs) : rows.filterMap (·[i]?) = vs := by
  have hall := mapM_eq_ok_iff.1 h
  clear h
  induction hall with
  | nil => rfl
  | @cons row v rows vs hv _ ih =>
    have hget : row[i]? = some v := by
      rw [Physical.Expr.onRow] at hv
      split at hv
      · rename_i hw
        rw [hw, Except.ok.inj hv]
      · cases hv
    rw [List.filterMap_cons, hget, ih]

theorem mapM_onRow_zipIdx {fields : List Field} {row : Row} (h : row.length = fields.length) :
    (fields.zipIdx.mapM fun p => (Physical.Expr.column p.2).onRow row) = .ok row := by
  rw [mapM_eq_ok_iff, List.forall₂_iff_get]
  refine ⟨by rw [List.length_zipIdx, h], fun i h₁ h₂ => ?_⟩
  simp only [Physical.Expr.onRow, List.get_eq_getElem, List.getElem_zipIdx, Nat.zero_add, List.getElem?_eq_getElem h₂]

theorem rows_ofRows {schema : Schema} {rows : List Row} {b : Batch} (h : ofRows schema rows = .ok b) :
    b.schema = schema ∧ b.rows = rows := by
  unfold ofRows at h
  split at h
  · cases h
  · rename_i hnone
    obtain ⟨columns, hcolumns, h⟩ := bind_eq_ok_iff.1 h
    obtain ⟨rfl, rfl, hn⟩ := ofColumns_eq_ok_iff.1 h
    have hlen : ∀ row ∈ rows, row.length = b.schema.size := by simpa using hnone
    have hrows := mapM_eq_ok_map fun row hrow => mapM_onRow_zipIdx (hlen row hrow)
    rw [List.map_id'] at hrows
    obtain ⟨values, hvalues, hall⟩ := mapM_mapM_eq_ok_iff.1 hrows
    have htoList : b.columns.map Column.toList = values := by
      rw [← List.forall₂_eq_eq_eq, List.forall₂_map_left_iff]
      refine forall₂_of_forall₂ (mapM_eq_ok_iff.1 hcolumns) hvalues fun p c vs hc hv => ?_
      rw [(Column.ofValues_eq_ok hc).2, filterMap_getElem?_of_mapM_onRow hv]
    refine ⟨rfl, ?_⟩
    rw [Batch.rows, hn, htoList]
    exact hall.symm

theorem length_filterMap_getElem? {rows : List Row} {i : Nat} (h : ∀ row ∈ rows, i < row.length) :
    (rows.filterMap (·[i]?)).length = rows.length := by
  induction rows with
  | nil => rfl
  | cons row rows ih =>
    rw [List.forall_mem_cons] at h
    rw [List.filterMap_cons, List.getElem?_eq_getElem h.1, List.length_cons, ih h.2, List.length_cons]

theorem exists_ofValues_filterMap {schema : Schema} {rows : List Row} {p : Field × Nat}
    (h : ∀ row ∈ rows, row.map Value.type = schema.types) (hp : p ∈ schema.fields.zipIdx) :
    ∃ c, Column.ofValues p.1.type (rows.filterMap (·[p.2]?)) = .ok c := by
  refine Column.exists_ofValues fun v hv => ?_
  obtain ⟨row, hrow, hget⟩ := List.mem_filterMap.1 hv
  have htype : (row.map Value.type)[p.2]? = some p.1.type := by
    rw [h row hrow, Schema.types, List.getElem?_map, List.mem_zipIdx_iff_getElem?.1 hp, Option.map_some]
  rw [List.getElem?_map, hget] at htype
  exact Option.some.inj htype

theorem exists_ofColumns_of_rows {schema : Schema} {rows : List Row} {columns : List Column}
    (hlen : ∀ row ∈ rows, row.length = schema.size)
    (hcolumns : (schema.fields.zipIdx.mapM fun p => Column.ofValues p.1.type (rows.filterMap (·[p.2]?))) = .ok columns) :
    ∃ b, ofColumns schema columns rows.length = .ok b := by
  have htypes := types_of_forall₂_zipIdx ((mapM_eq_ok_iff.1 hcolumns).imp fun p c hc => (Column.ofValues_eq_ok hc).1)
  refine exists_ofColumns htypes fun c hc => ?_
  obtain ⟨p, hp, hpc⟩ := exists_of_mem_mapM hcolumns hc
  obtain ⟨hlt, -⟩ := List.getElem?_eq_some_iff.1 (List.mem_zipIdx_iff_getElem?.1 hp)
  rw [← Column.length_toList, (Column.ofValues_eq_ok hpc).2, length_filterMap_getElem?]
  intro row hrow
  rw [hlen row hrow]
  exact hlt

theorem exists_ofRows {schema : Schema} {rows : List Row} (h : ∀ row ∈ rows, row.map Value.type = schema.types) :
    ∃ b, ofRows schema rows = .ok b := by
  have hlen : ∀ row ∈ rows, row.length = schema.size := by
    intro row hrow
    have hl := congrArg List.length (h row hrow)
    rwa [List.length_map, Schema.types, List.length_map] at hl
  obtain ⟨columns, hcolumns⟩ := exists_mapM_eq_ok_iff.2 fun p hp => exists_ofValues_filterMap h hp
  obtain ⟨b, hb⟩ := exists_ofColumns_of_rows hlen hcolumns
  refine ⟨b, ?_⟩
  unfold ofRows
  split
  · rename_i row hrow
    have hne := List.find?_some hrow
    exact absurd (hlen row (List.mem_of_find?_eq_some hrow)) (of_decide_eq_true hne)
  · rw [hcolumns, ok_bind, hb]

theorem exists_ofRows_iff {schema : Schema} {rows : List Row} :
    (∃ b, ofRows schema rows = .ok b) ↔ ∀ row ∈ rows, row.map Value.type = schema.types := by
  constructor
  · intro h row hrow
    obtain ⟨b, hb⟩ := h
    obtain ⟨rfl, rfl⟩ := rows_ofRows hb
    exact types_of_mem_rows hrow
  · exact exists_ofRows

theorem allRows_of_mapM_ofRows {schema : Schema} {pieces : List (List Row)} {bs : List Batch}
    (h : pieces.mapM (ofRows schema) = .ok bs) : allRows bs = pieces.flatten := by
  have hall := mapM_eq_ok_iff.1 h
  clear h
  induction hall with
  | nil => rfl
  | cons hb _ ih => rw [allRows_cons, (rows_ofRows hb).2, ih, List.flatten_cons]

end Batch

/-! ## Tables of given rows -/

namespace Table

/-- Two tables of one schema with the same rows, where either both have batches or neither has. -/
structure SameRows (t u : Table) : Prop where
  schema : t.schema = u.schema
  rows : t.rows = u.rows
  empty : t.batches = [] ↔ u.batches = []

theorem SameRows.symm {t u : Table} (h : t.SameRows u) : u.SameRows t :=
  ⟨h.schema.symm, h.rows.symm, h.empty.symm⟩

variable {schema : Schema} {rows : List Row} {batchSize : Nat} {t : Table}

theorem ofBatches_eq_ok {bs : List Batch} (h : ofBatches schema bs = .ok t) :
    t.schema = schema ∧ t.batches = bs := by
  unfold ofBatches at h
  split at h
  · cases h
  · cases h
    exact ⟨rfl, rfl⟩

theorem rows_ofRows (h : ofRows schema rows batchSize = .ok t) :
    t.schema = schema ∧ t.rows = rows ∧ (t.batches = [] ↔ rows = []) := by
  unfold ofRows at h
  obtain ⟨bs, hbs, h⟩ := bind_eq_ok_iff.1 h
  obtain ⟨hschema, hbatches⟩ := ofBatches_eq_ok h
  have hsize : 0 < max batchSize 1 := by omega
  refine ⟨hschema, ?_, ?_⟩
  · rw [Table.rows, hbatches, Batch.allRows_of_mapM_ofRows hbs, flatten_chunks hsize]
  · rw [hbatches, ← chunks_eq_nil_iff hsize rows, ← List.length_eq_zero_iff, length_of_mapM_eq_ok hbs,
      List.length_eq_zero_iff]

theorem exists_ofBatches {bs : List Batch} (h : ∀ b ∈ bs, b.schema = schema) : ∃ t, ofBatches schema bs = .ok t := by
  unfold ofBatches
  split
  · rename_i b hb
    have hne := List.find?_some hb
    exact absurd (h b (List.mem_of_find?_eq_some hb)) (of_decide_eq_true hne)
  · exact ⟨_, rfl⟩

theorem exists_ofBatches_of_mapM_ofRows {pieces : List (List Row)} {bs : List Batch}
    (h : pieces.mapM (Batch.ofRows schema) = .ok bs) : ∃ t, ofBatches schema bs = .ok t := by
  refine exists_ofBatches fun b hb => ?_
  obtain ⟨piece, -, hpiece⟩ := exists_of_mem_mapM h hb
  exact (Batch.rows_ofRows hpiece).1

/-- Rows of the types of the fields make a table, with any batch size. -/
theorem exists_ofRows_iff :
    (∃ t, ofRows schema rows batchSize = .ok t) ↔ ∀ row ∈ rows, row.map Value.type = schema.types := by
  have hsize : 0 < max batchSize 1 := by omega
  constructor
  · intro h row hrow
    obtain ⟨t, ht⟩ := h
    obtain ⟨bs, hbs, -⟩ := bind_eq_ok_iff.1 ht
    rw [← flatten_chunks hsize rows] at hrow
    obtain ⟨piece, hpiece, hmem⟩ := List.mem_flatten.1 hrow
    exact Batch.exists_ofRows_iff.1 (exists_mapM_eq_ok_iff.1 ⟨bs, hbs⟩ piece hpiece) row hmem
  · intro h
    have hpieces : ∀ piece ∈ chunks (max batchSize 1) rows, ∃ b, Batch.ofRows schema piece = .ok b := by
      intro piece hpiece
      exact Batch.exists_ofRows_iff.2 fun row hrow => h row (mem_of_mem_chunks hsize hpiece hrow)
    obtain ⟨bs, hbs⟩ := exists_mapM_eq_ok_iff.2 hpieces
    obtain ⟨t, ht⟩ := exists_ofBatches_of_mapM_ofRows hbs
    exact ⟨t, by rw [ofRows, hbs, ok_bind, ht]⟩

/-- The batch size of a table of given rows is not seen in its rows. -/
theorem sameRows_ofRows {size : Nat} {u : Table} (ht : ofRows schema rows batchSize = .ok t)
    (hu : ofRows schema rows size = .ok u) : SameRows t u := by
  obtain ⟨hts, htr, hte⟩ := rows_ofRows ht
  obtain ⟨hus, hur, hue⟩ := rows_ofRows hu
  exact ⟨hts.trans hus.symm, htr.trans hur.symm, hte.trans hue.symm⟩

def deliveries (batchSize : Nat) : Table :=
  let schema : Schema := ⟨[⟨"item", .text, false⟩, ⟨"quantity", .int .w64, false⟩]⟩
  match ofRows schema [[.text "nut", .ofInt .w64 1], [.text "bolt", .ofInt .w64 2], [.text "nut", .ofInt .w64 3]]
      batchSize with
  | .ok t => t
  | .error _ => ⟨schema, [], by simp⟩

end Table

end ColumnarQuery
