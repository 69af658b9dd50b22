import ColumnarQuery.Schema.Select
import ColumnarQuery.Proofs.Batch.Rows

/-!
# Columns by name

The first field of a name stands at the position that `Schema.indexOf` finds. At the positions of selected fields a row has
the values of `Schema.selectRow`, which looks at names only (`Schema.exists_positions`).
-/

namespace ColumnarQuery

theorem firstRepeated?_eq_none_iff {seen names : List String} :
    firstRepeated? seen names = none ↔ names.Nodup ∧ ∀ name ∈ names, name ∉ seen := by
  induction names generalizing seen with
  | nil => simp [firstRepeated?]
  | cons name names ih =>
    rw [firstRepeated?, List.nodup_cons, List.forall_mem_cons]
    split
    · simp_all
    · simp only [ih, List.mem_cons, not_or]
      grind

namespace Schema

theorem checked_eq_ok_iff {fields : List Field} {s : Schema} :
    checked fields = .ok s ↔ (fields.map Field.name).Nodup ∧ s = ⟨fields⟩ := by
  have hnodup : (fields.map Field.name).Nodup ↔ firstRepeated? [] (fields.map Field.name) = none := by
    simp [firstRepeated?_eq_none_iff]
  rw [hnodup, checked]
  cases firstRepeated? [] (fields.map Field.name) <;> simp [eq_comm]

def valueNamed? (s : Schema) (row : Row) (name : String) : Option Value :=
  (s.names.zip row).lookup name

/-- The values of a row in the columns of the given names, in their order and as often as they are given; unknown names
are left out, and an empty list stands for all columns. -/
def selectRow (s : Schema) (names : List String) (row : Row) : Row :=
  if names.isEmpty then row else names.filterMap (s.valueNamed? row)

variable {s : Schema} {name : String} {row : Row} {i : Nat}

theorem selectRow_of_isEmpty {names : List String} (h : names.isEmpty = true) : s.selectRow names = id := by
  funext row
  rw [selectRow, if_pos h, id]

theorem indexOf_eq_ok_iff : s.indexOf name = .ok i ↔ s.fields.findIdx? (·.name = name) = some i := by
  unfold indexOf
  cases s.fields.findIdx? (·.name = name) <;> simp

/-- The first field of a name stands at a position. -/
@[mk_iff]
structure FirstAt (s : Schema) (name : String) (i : Nat) : Prop where
  name_eq : s.names[i]? = some name
  first : name ∉ s.names.take i

theorem indexOf_eq_ok_iff_firstAt : s.indexOf name = .ok i ↔ s.FirstAt name i := by
  rw [indexOf_eq_ok_iff, List.findIdx?_eq_some_iff_getElem, firstAt_iff, Schema.names, ← List.map_take, List.getElem?_map,
    Option.map_eq_some_iff]
  simp only [decide_eq_true_eq, List.mem_map, not_exists, not_and, List.mem_take_iff_getElem]
  constructor
  · rintro ⟨hi, hname, hfirst⟩
    refine ⟨⟨_, List.getElem?_eq_getElem hi, hname⟩, ?_⟩
    rintro f ⟨j, hj, rfl⟩
    simpa using hfirst j (by omega)
  · rintro ⟨⟨f, hf, hname⟩, hfirst⟩
    obtain ⟨hi, rfl⟩ := List.getElem?_eq_some_iff.1 hf
    exact ⟨hi, hname, fun j hj => by simpa using hfirst _ ⟨j, by omega, rfl⟩⟩

/-- The value of a name stands at the first position of that name. -/
theorem valueNamed?_eq (s : Schema) (row : Row) (name : String) :
    s.valueNamed? row name = (s.fields.findIdx? (·.name = name)).bind (row[·]?) := by
  unfold valueNamed? names
  generalize s.fields = fields
  induction fields generalizing row with
  | nil => rfl
  | cons f fields ih =>
    rw [List.findIdx?_cons, List.map_cons]
    cases row with
    | nil =>
      rw [List.zip_nil_right, List.lookup_nil]
      cases (if decide (f.name = name) = true then some 0
        else (fields.findIdx? (·.name = name)).map fun i => i + 1) <;> rfl
    | cons v row =>
      rw [List.zip_cons_cons, List.lookup_cons]
      by_cases h : f.name = name
      · simp [h]
      · have hbeq : (name == f.name) = false := by simpa using Ne.symm h
        rw [hbeq, ih]
        simp only [h, decide_false, Bool.false_eq_true, if_false]
        cases fields.findIdx? (·.name = name) <;> rfl

theorem field?_eq (s : Schema) (name : String) :
    s.field? name = (s.fields.findIdx? (·.name = name)).bind (s.fields[·]?) := by
  unfold field?
  generalize s.fields = fields
  induction fields with
  | nil => rfl
  | cons f fields ih =>
    rw [List.findIdx?_cons, List.find?_cons]
    by_cases h : f.name = name
    · simp [h]
    · simp only [h, decide_false, Bool.false_eq_true, if_false, ih]
      cases fields.findIdx? (·.name = name) <;> rfl

theorem valueNamed?_of_indexOf (h : s.indexOf name = .ok i) (row : Row) : s.valueNamed? row name = row[i]? := by
  rw [valueNamed?_eq, indexOf_eq_ok_iff.1 h, Option.bind_some]

theorem field?_of_indexOf (h : s.indexOf name = .ok i) : s.field? name = s.fields[i]? := by
  rw [field?_eq, indexOf_eq_ok_iff.1 h, Option.bind_some]

theorem exists_indexOf {f : Field} (h : s.field? name = some f) :
    ∃ i, s.indexOf f.name = .ok i ∧ s.indexOf name = .ok i ∧ s.fields[i]? = some f := by
  have hname : f.name = name := by
    have := List.find?_some h
    exact of_decide_eq_true this
  rw [field?_eq, Option.bind_eq_some_iff] at h
  obtain ⟨i, hi, hf⟩ := h
  rw [hname]
  exact ⟨i, indexOf_eq_ok_iff.2 hi, indexOf_eq_ok_iff.2 hi, hf⟩

theorem indexOf_lt (h : s.indexOf name = .ok i) : i < s.fields.length := by
  rw [indexOf_eq_ok_iff, List.findIdx?_eq_some_iff_getElem] at h
  exact h.1

theorem valueNamed?_of_field?_eq_none (h : s.field? name = none) (row : Row) : s.valueNamed? row name = none := by
  rw [field?_eq] at h
  rw [valueNamed?_eq]
  cases hi : s.fields.findIdx? (·.name = name) with
  | none => rfl
  | some i =>
    have hlt := indexOf_lt (indexOf_eq_ok_iff.2 hi)
    rw [hi, Option.bind_some, List.getElem?_eq_getElem hlt] at h
    cases h

theorem exists_positions (s : Schema) (names : List String) :
    ∃ positions, (names.filterMap s.field?).mapM (s.indexOf ·.name) = .ok positions ∧
      positions.map (s.fields[·]?) = (names.filterMap s.field?).map some ∧
      ∀ row : Row, row.length = s.size → positions.map (row[·]?) = (names.filterMap (s.valueNamed? row)).map some := by
  induction names with
  | nil => exact ⟨[], rfl, rfl, fun _ _ => rfl⟩
  | cons name names ih =>
    obtain ⟨positions, hpositions, hfields, hrows⟩ := ih
    cases hname : s.field? name with
    | none =>
      rw [List.filterMap_cons, hname]
      refine ⟨positions, hpositions, hfields, ?_⟩
      intro row hrow
      rw [List.filterMap_cons, valueNamed?_of_field?_eq_none hname, hrows row hrow]
    | some f =>
      obtain ⟨i, hi, hi', hf⟩ := exists_indexOf hname
      refine ⟨i :: positions, ?_, by rw [List.filterMap_cons, hname, List.map_cons, hf, hfields, List.map_cons], ?_⟩
      · rw [List.filterMap_cons, hname, List.mapM_cons, hi, ok_bind, hpositions, ok_bind, pure_eq_ok]
      · intro row hrow
        have hlt : i < row.length := by
          rw [hrow]
          exact indexOf_lt hi
        rw [List.filterMap_cons, valueNamed?_of_indexOf hi', List.map_cons, hrows row hrow,
          List.getElem?_eq_getElem hlt, List.map_cons]

end Schema

end ColumnarQuery
