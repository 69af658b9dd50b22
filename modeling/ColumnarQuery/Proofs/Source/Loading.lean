import ColumnarQuery.Proofs.Indexed
import ColumnarQuery.Proofs.Source.Rows

/-!
# Loading rows

`Table.ofIndexedRows` makes a table of rows that are indexed field by field, and no index leaves a row. There is a table of
rows that are all admitted by the schema, and no other (`Table.ofRows_lossless`).
-/

namespace ColumnarQuery

/-! ## Rows read back -/

def Batch.readRows (b : Batch) : Except Error (List Row) :=
  (List.range b.rowCount).mapM b.row

theorem Batch.readRows_eq (b : Batch) : b.readRows = .ok b.rows := by
  rw [readRows, mapM_eq_ok_iff, List.forall₂_iff_get]
  refine ⟨by rw [List.length_range, length_rows], fun i h₁ h₂ => ?_⟩
  rw [List.get_eq_getElem, List.getElem_range, row_eq_ok_iff]
  exact List.getElem?_eq_getElem h₂

/-! ## Rows within bounds -/

section Bounds
variable {schema : Schema} {rows : List Row}

/-- The batch of the given rows, each of which is indexed by the positions of the fields. -/
def Batch.ofIndexedRows (schema : Schema) (rows : List Row) : Indexed Batch :=
  match rows.find? (·.length ≠ schema.size) with
  | some row => Indexed.lift (.error (.invalidSchema (.rowSize row.length schema.size)))
  | none => do
    let columns ← schema.fields.zipIdx.mapM fun (f, i) => do
      Indexed.lift (Column.ofValues f.type (← rows.mapM (Indexed.get · i)))
    Indexed.lift (Batch.ofColumns schema columns rows.length)

def Table.ofIndexedRows (schema : Schema) (rows : List Row) (batchSize : Nat) : Indexed Table := do
  let batches ← (chunks (max batchSize 1) rows).mapM (Batch.ofIndexedRows schema)
  Indexed.lift (Table.ofBatches schema batches)

theorem mapM_get_eq_lift {i : Nat} (h : ∀ row ∈ rows, i < row.length) :
    rows.mapM (Indexed.get · i) = Indexed.lift (.ok (rows.filterMap (·[i]?))) := by
  induction rows with
  | nil => rfl
  | cons row rows ih =>
    rw [List.forall_mem_cons] at h
    have hget : row[i]? = some row[i] := List.getElem?_eq_getElem h.1
    rw [List.mapM_cons, Indexed.get_eq_lift hget, ih h.2, List.filterMap_cons, hget]
    rfl

/-- A row is only indexed once all rows have a value for each field. -/
theorem Batch.ofIndexedRows_eq_lift (schema : Schema) (rows : List Row) :
    ofIndexedRows schema rows = Indexed.lift (ofRows schema rows) := by
  rw [ofIndexedRows, ofRows]
  cases hfind : rows.find? (·.length ≠ schema.size) with
  | some row => rfl
  | none =>
    have hlen : ∀ row ∈ rows, row.length = schema.size := by simpa using hfind
    rw [← Indexed.lift_bind]
    refine congrArg (· >>= _) (Indexed.mapM_eq_lift fun ⟨f, i⟩ hp => ?_)
    obtain ⟨hi, -⟩ := List.getElem?_eq_some_iff.1 (List.mem_zipIdx_iff_getElem?.1 hp)
    have hread : ∀ row ∈ rows, i < row.length := fun row hrow => (hlen row hrow).ge.trans_lt' hi
    exact congrArg (· >>= fun vs => Indexed.lift (Column.ofValues f.type vs)) (mapM_get_eq_lift hread)

theorem Table.ofIndexedRows_eq_lift (schema : Schema) (rows : List Row) (batchSize : Nat) :
    ofIndexedRows schema rows batchSize = Indexed.lift (ofRows schema rows batchSize) := by
  rw [ofIndexedRows, ofRows, ← Indexed.lift_bind,
    Indexed.mapM_eq_lift fun piece _ => Batch.ofIndexedRows_eq_lift schema piece]

end Bounds

/-! ## Refused rows -/

/-- A row has as many values as there are fields, each of the type of its field. -/
structure Schema.Admits (s : Schema) (row : Row) : Prop where
  length_eq : row.length = s.size
  type_eq : ∀ (i : Nat) (v : Value) (f : Field), row[i]? = some v → s.fields[i]? = some f → v.type = f.type

/-- Why a row is not admitted. -/
inductive Schema.Refuses (s : Schema) (row : Row) : Error → Prop
  | rowSize : row.length ≠ s.size → Refuses s row (.invalidSchema (.rowSize row.length s.size))
  | type {i : Nat} {v : Value} {f : Field} :
    row[i]? = some v → s.fields[i]? = some f → v.type ≠ f.type → Refuses s row (.typeMismatch f.type v.type)

theorem Schema.admits_iff {s : Schema} {row : Row} : s.Admits row ↔ row.map Value.type = s.types := by
  constructor
  · rintro ⟨hlength, htype⟩
    rw [types, ← List.forall₂_eq_eq_eq, List.forall₂_map_left_iff, List.forall₂_map_right_iff, List.forall₂_iff_get]
    exact ⟨hlength, fun i h₁ h₂ => htype i _ _ (List.getElem?_eq_getElem h₁) (List.getElem?_eq_getElem h₂)⟩
  · intro h
    have hlength := congrArg List.length h
    rw [types, List.length_map, List.length_map] at hlength
    refine ⟨hlength, fun i v f hv hf => ?_⟩
    have htype := congrArg (·[i]?) h
    rw [types, List.getElem?_map, List.getElem?_map, hv, hf] at htype
    exact Option.some.inj htype

section Refusals
variable {schema : Schema} {rows : List Row} {batchSize : Nat} {e : Error}

theorem Column.exists_of_ofValues_eq_error {t : DataType} {vs : List Value} (h : ofValues t vs = .error e) :
    ∃ v ∈ vs, v.type ≠ t ∧ e = .typeMismatch t v.type := by
  unfold ofValues at h
  split at h
  · rename_i v hv
    have hne := List.find?_some hv
    exact ⟨v, List.mem_of_find?_eq_some hv, of_decide_eq_true hne, (Except.error.inj h).symm⟩
  · cases h

theorem Batch.refuses_of_ofRows (h : ofRows schema rows = .error e) : ∃ row ∈ rows, schema.Refuses row e := by
  unfold ofRows at h
  split at h
  · rename_i row hrow
    have hne := List.find?_some hrow
    cases h
    exact ⟨row, List.mem_of_find?_eq_some hrow, .rowSize (of_decide_eq_true hne)⟩
  · rename_i hnone
    have hlen : ∀ row ∈ rows, row.length = schema.size := by simpa using hnone
    rw [bind_eq_error_iff] at h
    rcases h with hcolumns | ⟨columns, hcolumns, h⟩
    · obtain ⟨⟨f, i⟩, hreach, hcolumn⟩ := mapM_eq_error_iff.1 hcolumns
      obtain ⟨v, hv, htype, rfl⟩ := Column.exists_of_ofValues_eq_error hcolumn
      obtain ⟨row, hrow, hget⟩ := List.mem_filterMap.1 hv
      exact ⟨row, hrow, .type hget (List.mem_zipIdx_iff_getElem?.1 hreach.mem) htype⟩
    · obtain ⟨b, hb⟩ := exists_ofColumns_of_rows hlen hcolumns
      rw [hb] at h
      cases h

/-- A table is refused for one of its rows. -/
theorem Table.refuses_of_ofRows (h : ofRows schema rows batchSize = .error e) :
    ∃ row ∈ rows, schema.Refuses row e := by
  have hsize : 0 < max batchSize 1 := by omega
  rw [ofRows, bind_eq_error_iff] at h
  rcases h with hpieces | ⟨bs, hbs, h⟩
  · obtain ⟨piece, hreach, hpiece⟩ := mapM_eq_error_iff.1 hpieces
    obtain ⟨row, hrow, hrefuses⟩ := Batch.refuses_of_ofRows hpiece
    exact ⟨row, mem_of_mem_chunks hsize hreach.mem hrow, hrefuses⟩
  · obtain ⟨t, ht⟩ := exists_ofBatches_of_mapM_ofRows hbs
    rw [ht] at h
    cases h

end Refusals

/-! ## Tables of rows -/

namespace Table
variable {schema : Schema} {rows : List Row} {batchSize : Nat} {t : Table}

theorem forall₂_chunks (h : ofRows schema rows batchSize = .ok t) :
    List.Forall₂ (fun piece b => b.rows = piece) (chunks (max batchSize 1) rows) t.batches := by
  obtain ⟨bs, hbs, h⟩ := bind_eq_ok_iff.1 h
  obtain ⟨-, rfl⟩ := ofBatches_eq_ok h
  exact (mapM_eq_ok_iff.1 hbs).imp fun piece b hb => (Batch.rows_ofRows hb).2

/-- The batches of a table hold given rows, in order and with a size that only the last one may fall short of. -/
structure LoadedFrom (schema : Schema) (rows : List Row) (size : Nat) (t : Table) : Prop where
  schema_eq : t.schema = schema
  batch_schema : ∀ b ∈ t.batches, b.schema = schema
  rows_eq : (t.batches.mapM Batch.readRows).map List.flatten = .ok rows
  full : ∀ (i : Nat) (b : Batch), t.batches[i]? = some b → i + 1 < t.batches.length → b.rowCount = size
  bounded : ∀ b ∈ t.batches, 1 ≤ b.rowCount ∧ b.rowCount ≤ size
  count : t.batches.length = rows.length ⌈/⌉ size
  empty : t.batches = [] ↔ rows = []

theorem loadedFrom_of_ofRows (h : ofRows schema rows batchSize = .ok t) :
    t.LoadedFrom schema rows (max batchSize 1) := by
  have hsize : 0 < max batchSize 1 := by omega
  obtain ⟨hschema, hrows, hnil⟩ := rows_ofRows h
  have hpieces := forall₂_chunks h
  have hlength : t.batches.length = (chunks (max batchSize 1) rows).length := hpieces.length_eq.symm
  have hpiece : ∀ i b, t.batches[i]? = some b →
      (i + 1 < t.batches.length → b.rowCount = max batchSize 1) ∧ 1 ≤ b.rowCount ∧ b.rowCount ≤ max batchSize 1 := by
    intro i b hb
    obtain ⟨piece, hpiece, rfl⟩ := exists_getElem?_of_forall₂ hpieces.flip hb
    rw [hlength, ← b.length_rows]
    exact length_piece hsize hpiece
  exact {
    schema_eq := hschema
    batch_schema := fun b hb => (t.uniform b hb).trans hschema
    rows_eq := by
      rw [mapM_eq_ok_map fun b _ => b.readRows_eq]
      exact congrArg Except.ok hrows
    full := fun i b hb => (hpiece i b hb).1
    bounded := by
      intro b hb
      obtain ⟨i, hi⟩ := List.getElem?_of_mem hb
      exact (hpiece i b hi).2
    count := by rw [hlength, length_chunks]
    empty := hnil }

/-- A list of rows makes a table if every row has a value of the type of each field, and is refused for a row that has
not; no row is indexed past its end. The table gives the rows back, in batches of the size asked for, or of one row if that is zero. -/
theorem ofRows_lossless (schema : Schema) (rows : List Row) (batchSize : Nat) :
    ofIndexedRows schema rows batchSize = Indexed.lift (ofRows schema rows batchSize) ∧
    ((∃ t, ofRows schema rows batchSize = .ok t) ↔ ∀ row ∈ rows, schema.Admits row) ∧
    (∀ e, ofRows schema rows batchSize = .error e → ∃ row ∈ rows, schema.Refuses row e) ∧
    ∀ t, ofRows schema rows batchSize = .ok t → t.LoadedFrom schema rows (max batchSize 1) := by
  refine ⟨ofIndexedRows_eq_lift schema rows batchSize, ?_, fun e => refuses_of_ofRows, fun t => loadedFrom_of_ofRows⟩
  simp only [Schema.admits_iff]
  exact exists_ofRows_iff

/-- Three deliveries, two to a batch; three rows without values, in batches of no rows, which are of one; and a delivery
whose quantity is a text. -/
theorem ofRows_lossless_deliveries :
    let schema : Schema := ⟨[⟨"item", .text, false⟩, ⟨"quantity", .int .w64, false⟩]⟩
    let rows : List Row :=
      [[.text "nut", .ofInt .w64 1], [.text "bolt", .ofInt .w64 2], [.text "nail", .ofInt .w64 3]]
    let many : Row := [.text "nut", .text "many"]
    (∃ t, ofRows schema rows 2 = .ok t ∧ t.batches.map Batch.rowCount = [2, 1] ∧
      (t.batches.mapM Batch.readRows).map List.flatten = .ok rows) ∧
    (∃ t, ofRows .empty [[], [], []] 0 = .ok t ∧ t.batches.map Batch.rowCount = [1, 1, 1] ∧
      (t.batches.mapM Batch.readRows).map List.flatten = .ok [[], [], []]) ∧
    ofRows schema [many] 2 = .error (.typeMismatch (.int .w64) .text) ∧
    schema.Refuses many (.typeMismatch (.int .w64) .text) := by
  intro schema rows many
  have hrows : ∀ row ∈ rows, schema.Admits row := by
    simp only [Schema.admits_iff]
    decide
  have hempty : ∀ row ∈ [[], [], []], Schema.empty.Admits row := by
    simp only [Schema.admits_iff]
    decide
  obtain ⟨-, hiff, -, hread⟩ := ofRows_lossless schema rows 2
  obtain ⟨-, hiff₀, -, hread₀⟩ := ofRows_lossless .empty [[], [], []] 0
  obtain ⟨-, -, hrefused, -⟩ := ofRows_lossless schema [many] 2
  obtain ⟨t, ht⟩ := hiff.2 hrows
  obtain ⟨t₀, ht₀⟩ := hiff₀.2 hempty
  subst schema rows many
  obtain ⟨row, hrow, hrefuses⟩ := hrefused (.typeMismatch (.int .w64) .text) rfl
  have hcount := (Except.ok.inj (congrArg (Except.map (·.batches.map Batch.rowCount)) ht)).symm
  have hcount₀ := (Except.ok.inj (congrArg (Except.map (·.batches.map Batch.rowCount)) ht₀)).symm
  exact ⟨⟨t, ht, hcount, (hread t ht).rows_eq⟩, ⟨t₀, ht₀, hcount₀, (hread₀ t₀ ht₀).rows_eq⟩, rfl,
    List.mem_singleton.1 hrow ▸ hrefuses⟩

end Table

end ColumnarQuery
