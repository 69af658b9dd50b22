import ColumnarQuery.Proofs.Schema.Selection
import ColumnarQuery.Proofs.Source.Scan

/-!
# The columns that a scan reads

A scan of a table in memory never fails, whatever it is asked for (`Table.scan_reads_selected`). With names it reads the
first stored column of each; without names it returns the stored batches, in which a column may stand under a name that is
not the first of its kind (`Table.scan_all_repeated_column`).
-/

namespace ColumnarQuery

/-- A batch has the selected fields of a stored one and its rows, and under each field the first stored column of its
name. -/
structure Batch.SelectedFrom (s : Schema) (names : List String) (b out : Batch) : Prop where
  schema_eq : out.schema = s.select names
  rowCount_eq : out.rowCount = b.rowCount
  column : ∀ j f, (s.select names).fields[j]? = some f →
    ∃ i c, s.FirstAt f.name i ∧ b.column i = .ok c ∧ out.column j = .ok c

namespace Table

variable {t : Table} {names : List String} {out : List Batch}

/-- The columns at the positions of the selected fields make a selected batch. -/
theorem selectedFrom_of_positions {b b' : Batch} {positions : List Nat}
    (hpositions : (t.schema.select names).fields.mapM (t.schema.indexOf ·.name) = .ok positions)
    (h : (do Batch.ofColumns (t.schema.select names) (← positions.mapM b.column) b.rowCount) = .ok b') :
    b.SelectedFrom t.schema names b' := by
  obtain ⟨columns, hcolumns, h⟩ := bind_eq_ok_iff.1 h
  obtain ⟨hschema, rfl, hrows⟩ := Batch.ofColumns_eq_ok_iff.1 h
  refine ⟨hschema, hrows, fun j f hf => ?_⟩
  obtain ⟨i, hi, hfirst⟩ := exists_getElem?_of_forall₂ (mapM_eq_ok_iff.1 hpositions) hf
  obtain ⟨c, hc, hcolumn⟩ := exists_getElem?_of_forall₂ (mapM_eq_ok_iff.1 hcolumns) hi
  exact ⟨i, c, Schema.indexOf_eq_ok_iff_firstAt.1 hfirst, hcolumn, by rw [Batch.column, hc]⟩

/-- A scan of named columns returns a selected batch for each stored one. -/
theorem forall₂_scan (hne : names ≠ []) (h : t.scan names = .ok out) :
    List.Forall₂ (Batch.SelectedFrom t.schema names) t.batches out := by
  rw [scan, if_neg (by simpa using hne)] at h
  obtain ⟨positions, hpositions, h⟩ := bind_eq_ok_iff.1 h
  exact (mapM_eq_ok_iff.1 h).imp fun b b' hb => selectedFrom_of_positions hpositions hb

theorem columns_eq_nil {b b' : Batch} (h : b.SelectedFrom t.schema names b') (hne : names ≠ [])
    (hunknown : ∀ name ∈ names, name ∉ t.schema.names) : b'.columns = [] := by
  have hnames := Schema.names_select (s := t.schema) hne
  have hnone : names.filter (· ∈ t.schema.names) = [] := by simpa using hunknown
  have htypes := congrArg List.length b'.typed
  rw [hnone, Schema.names, List.map_eq_nil_iff] at hnames
  rw [h.schema_eq, Schema.types, hnames, List.length_map] at htypes
  exact List.length_eq_zero_iff.1 htypes

/-- A scan of a table in memory never fails, and no plan that scans one finds a fault in what it returns. For each stored
batch there is one with the selected schema and as many rows. Without names it is the stored batch itself. With names the
first stored column of its name stands under each selected field, and if none of them is known there are no columns. -/
theorem scan_reads_selected (t : Table) (names : List String) :
    ∃ out, t.scan names = .ok out ∧ (Physical.Plan.scan t.source names).execute = .ok out ∧
      List.Forall₂ (fun stored b => b.schema = t.schema.select names ∧ b.rowCount = stored.rowCount) t.batches out ∧
      (names = [] → out = t.batches) ∧
      (names ≠ [] → List.Forall₂ (Batch.SelectedFrom t.schema names) t.batches out ∧
        ((∀ name ∈ names, name ∉ t.schema.names) → ∀ b ∈ out, b.columns = [])) := by
  obtain ⟨out, hout, -⟩ := t.exists_scan names
  refine ⟨out, hout, (t.scanChecked_source names).trans hout, ?_, ?_, fun hne => ⟨forall₂_scan hne hout, ?_⟩⟩
  · by_cases hne : names = []
    · subst hne
      cases hout
      exact List.forall₂_same.2 fun b hb => ⟨t.uniform b hb, rfl⟩
    · exact (forall₂_scan hne hout).imp fun _ _ h => ⟨h.schema_eq, h.rowCount_eq⟩
  · rintro rfl
    cases hout
    rfl
  · intro hunknown b hb
    obtain ⟨stored, -, hselected⟩ := exists_mem_of_forall₂ (forall₂_scan hne hout).flip hb
    exact columns_eq_nil hselected hne hunknown

/-- Two deliveries in one batch, in which two columns are called item. -/
def itemsTwice : Table :=
  let schema : Schema := ⟨[⟨"item", .text, false⟩, ⟨"quantity", .int .w64, false⟩, ⟨"item", .boolean, false⟩]⟩
  let items : Column := .array .text #[.text "nut", .text "bolt"] (by decide)
  let quantities : Column := .array (.int .w64) #[.ofInt .w64 1, .ofInt .w64 2] (by decide)
  ⟨schema, [⟨schema, [items, quantities, .constant (.boolean true) 2], 2, rfl, by decide⟩],
    List.forall_mem_singleton.2 rfl⟩

/-- A scan of all columns returns the boolean column called item too, before which there stands another one. -/
theorem scan_all_repeated_column :
    itemsTwice.scan [] = .ok itemsTwice.batches ∧
      ¬ List.Forall₂ (Batch.SelectedFrom itemsTwice.schema []) itemsTwice.batches itemsTwice.batches := by
  refine ⟨rfl, fun h => ?_⟩
  cases h with
  | cons hb _ =>
    obtain ⟨i, c, hfirst, hstored, hout⟩ := hb.column 2 ⟨"item", .boolean, false⟩ rfl
    have hi : i = 0 := by
      have hindex := Schema.indexOf_eq_ok_iff_firstAt.2 hfirst
      exact (Except.ok.inj hindex).symm
    subst hi
    have hsame : (Except.ok c : Except Error Column).map Column.type = .ok .boolean := congrArg (Except.map Column.type) hout.symm
    rw [← hstored] at hsame
    cases hsame

/-- A name that two columns have, asked for twice and beside one that is not there; and none but that one. -/
theorem scan_reads_selected_itemsTwice :
    (∃ out, itemsTwice.scan ["item", "price", "item"] = .ok out ∧
      List.Forall₂ (Batch.SelectedFrom itemsTwice.schema ["item", "price", "item"]) itemsTwice.batches out ∧
      Batch.allRows out = [[.text "nut", .text "nut"], [.text "bolt", .text "bolt"]]) ∧
    ∃ out, itemsTwice.scan ["price"] = .ok out ∧
      List.Forall₂ (Batch.SelectedFrom itemsTwice.schema ["price"]) itemsTwice.batches out ∧
      (∀ b ∈ out, b.columns = []) ∧ out.map Batch.rowCount = [2] := by
  obtain ⟨out, hout, -, -, -, hnamed⟩ := scan_reads_selected itemsTwice ["item", "price", "item"]
  obtain ⟨bare, hbare, -, -, -, hunnamed⟩ := scan_reads_selected itemsTwice ["price"]
  obtain ⟨hrows, hnone⟩ := hunnamed (by decide)
  have hread := (Except.ok.inj (congrArg (Except.map Batch.allRows) hout)).symm
  have hcount := (Except.ok.inj (congrArg (Except.map (List.map Batch.rowCount)) hbare)).symm
  exact ⟨⟨out, hout, (hnamed (by decide)).1, hread⟩, bare, hbare, hrows, hnone (by decide), hcount⟩

end Table

end ColumnarQuery
