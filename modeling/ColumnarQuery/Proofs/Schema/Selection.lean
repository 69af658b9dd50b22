import ColumnarQuery.Proofs.Schema.Lookup

/-!
# Selecting fields

A selection lists the first field of each known name that it is given (`Schema.forall₂_select`). Two selections are one, of
the names that both were given, and the strict selection is the lenient one or fails with the first unknown name
(`Schema.select_coherent`).
-/

namespace ColumnarQuery.Schema

variable {s r : Schema} {name : String} {f : Field} {p q : List String}

/-! ## The field of a name -/

/-- A field is the first one of a name. -/
def FirstNamed (s : Schema) (name : String) (f : Field) : Prop :=
  ∃ i, s.FirstAt name i ∧ s.fields[i]? = some f

theorem FirstNamed.name_eq (h : s.FirstNamed name f) : f.name = name := by
  obtain ⟨i, hi, hf⟩ := h
  have hname := hi.name_eq
  rw [names, List.getElem?_map, hf, Option.map_some, Option.some.injEq] at hname
  exact hname

theorem field?_eq_some_iff : s.field? name = some f ↔ s.FirstNamed name f := by
  rw [field?_eq, Option.bind_eq_some_iff]
  simp only [← indexOf_eq_ok_iff, indexOf_eq_ok_iff_firstAt, FirstNamed]

theorem field?_eq_none_iff : s.field? name = none ↔ name ∉ s.names := by
  simp [field?, names]

theorem exists_firstNamed_iff : (∃ f, s.FirstNamed name f) ↔ name ∈ s.names := by
  simp only [← field?_eq_some_iff]
  rw [← Option.isSome_iff_exists, ← Option.ne_none_iff_isSome, ne_eq, field?_eq_none_iff, not_not]

theorem fieldNamed_eq_ok_iff : s.fieldNamed name = .ok f ↔ s.FirstNamed name f := by
  rw [← field?_eq_some_iff, fieldNamed]
  cases s.field? name <;> simp

theorem fieldNamed_eq_error_iff {e : Error} :
    s.fieldNamed name = .error e ↔ name ∉ s.names ∧ e = .columnNotFound name := by
  rw [← field?_eq_none_iff, fieldNamed]
  cases s.field? name <;> simp [eq_comm]

theorem exists_indexOf_iff : (∃ i, s.indexOf name = .ok i) ↔ name ∈ s.names := by
  rw [← exists_firstNamed_iff]
  simp only [indexOf_eq_ok_iff_firstAt, FirstNamed]
  constructor
  · rintro ⟨i, hi⟩
    have hname := hi.name_eq
    rw [names, List.getElem?_map, Option.map_eq_some_iff] at hname
    obtain ⟨f, hf, -⟩ := hname
    exact ⟨f, i, hi, hf⟩
  · rintro ⟨f, i, hi, -⟩
    exact ⟨i, hi⟩

theorem indexOf_of_not_mem (h : name ∉ s.names) : s.indexOf name = .error (.columnNotFound name) := by
  have hnone : s.fields.findIdx? (·.name = name) = none := by simpa [names] using h
  rw [indexOf, hnone]

/-! ## The lenient selection -/

@[simp] theorem select_nil (s : Schema) : s.select [] = s := rfl

theorem fields_select (h : p ≠ []) : (s.select p).fields = p.filterMap s.field? := by
  rw [select, if_neg (by simpa using h)]

theorem forall₂_filterMap_field? (s : Schema) (p : List String) :
    List.Forall₂ s.FirstNamed (p.filter (· ∈ s.names)) (p.filterMap s.field?) := by
  induction p with
  | nil => exact .nil
  | cons name p ih =>
    cases hf : s.field? name with
    | none => rwa [List.filterMap_cons, hf, List.filter_cons_of_neg (by simpa using field?_eq_none_iff.1 hf)]
    | some f =>
      have hfirst := field?_eq_some_iff.1 hf
      have hmem := exists_firstNamed_iff.1 ⟨f, hfirst⟩
      rw [List.filterMap_cons, hf, List.filter_cons_of_pos (by simpa using hmem)]
      exact .cons hfirst ih

/-- A selection lists the first field of each known name, in the order of the names and as often as they are given. -/
theorem forall₂_select (h : p ≠ []) :
    List.Forall₂ s.FirstNamed (p.filter (· ∈ s.names)) (s.select p).fields := by
  rw [fields_select h]
  exact forall₂_filterMap_field? s p

theorem names_select (h : p ≠ []) : (s.select p).names = p.filter (· ∈ s.names) := by
  rw [names, ← List.forall₂_eq_eq_eq, List.forall₂_map_left_iff]
  exact (forall₂_select h).flip.imp fun _ _ hf => FirstNamed.name_eq hf

theorem field?_select (h : p ≠ []) : (s.select p).field? name = if name ∈ p then s.field? name else none := by
  rw [field?, fields_select h]
  clear h
  induction p with
  | nil => rfl
  | cons n p ih =>
    cases hf : s.field? n with
    | none =>
      rw [List.filterMap_cons, hf, ih]
      -- An unknown name is not found in either schema, wherever it is asked for.
      by_cases hn : name = n
      · subst hn
        simp [hf]
      · simp [hn]
    | some f =>
      have hname := (field?_eq_some_iff.1 hf).name_eq
      rw [List.filterMap_cons, hf, List.find?_cons, hname]
      by_cases hn : n = name
      · subst hn
        simp [hf]
      · simp [hn, Ne.symm hn, ih]

/-- Two selections are one, of the names that both were given. -/
theorem select_select (hp : p ≠ []) (hq : q ≠ []) :
    ((s.select p).select q).fields = (q.filter (· ∈ p)).filterMap s.field? := by
  rw [fields_select hq, List.filterMap_filter]
  refine List.filterMap_congr fun name _ => ?_
  simp [field?_select hp]

theorem select_self (s : Schema) (p : List String) : (s.select p).select p = s.select p := by
  by_cases hp : p = []
  · rw [hp, select_nil, select_nil]
  · have hall : p.filter (· ∈ p) = p := List.filter_eq_self.2 fun name hname => decide_eq_true hname
    have hfields := select_select (s := s) hp hp
    rw [hall, ← fields_select hp] at hfields
    exact congrArg Schema.mk hfields

/-! ## The strict selection -/

theorem mapM_fieldNamed_eq_ok_iff {fields : List Field} :
    p.mapM s.fieldNamed = .ok fields ↔ (∀ name ∈ p, name ∈ s.names) ∧ fields = p.filterMap s.field? := by
  rw [mapM_eq_ok_iff]
  simp only [fieldNamed_eq_ok_iff]
  constructor
  · intro h
    induction h with
    | nil => simp
    | @cons name f p fields hf _ ih =>
      obtain ⟨hknown, rfl⟩ := ih
      rw [List.filterMap_cons, field?_eq_some_iff.2 hf]
      exact ⟨List.forall_mem_cons.2 ⟨exists_firstNamed_iff.1 ⟨f, hf⟩, hknown⟩, rfl⟩
  · rintro ⟨hknown, rfl⟩
    have hall : p.filter (· ∈ s.names) = p := List.filter_eq_self.2 fun name hname => decide_eq_true (hknown name hname)
    have h := forall₂_filterMap_field? s p
    rwa [hall] at h

theorem trySelect_eq_ok_iff : s.trySelect p = .ok r ↔ (∀ name ∈ p, name ∈ s.names) ∧ r = s.select p := by
  by_cases hp : p = []
  · subst hp
    simp [trySelect, select, eq_comm]
  · rw [trySelect, if_neg (by simpa using hp), map_eq_ok_iff]
    simp only [mapM_fieldNamed_eq_ok_iff, ← fields_select hp]
    constructor
    · rintro ⟨_, ⟨hknown, rfl⟩, rfl⟩
      exact ⟨hknown, rfl⟩
    · rintro ⟨hknown, rfl⟩
      exact ⟨_, ⟨hknown, rfl⟩, rfl⟩

/-- The strict selection fails with the first name that is not known. -/
theorem trySelect_eq_error_iff {e : Error} :
    s.trySelect p = .error e ↔ ∃ before name after, p = before ++ name :: after ∧ (∀ n ∈ before, n ∈ s.names) ∧
      name ∉ s.names ∧ e = .columnNotFound name := by
  by_cases hp : p = []
  · subst hp
    simp [trySelect]
  · rw [trySelect, if_neg (by simpa using hp), map_eq_error_iff, mapM_eq_error_iff]
    simp only [fieldNamed_eq_error_iff, Reaches, mapM_fieldNamed_eq_ok_iff]
    constructor
    · rintro ⟨name, ⟨before, after, _, hsplit, hknown, -⟩, hunknown, he⟩
      exact ⟨before, name, after, hsplit, hknown, hunknown, he⟩
    · rintro ⟨before, name, after, hsplit, hknown, hunknown, he⟩
      exact ⟨name, ⟨before, after, _, hsplit, hknown, rfl⟩, hunknown, he⟩

/-! ## Both -/

theorem exists_checked_iff {fields : List Field} :
    (∃ r, checked fields = .ok r) ↔ (fields.map Field.name).Nodup := by
  simp only [checked_eq_ok_iff, exists_and_left, exists_eq, and_true]

theorem checked_select (hne : p ≠ []) (hp : p.Nodup) : checked (s.select p).fields = .ok (s.select p) := by
  refine checked_eq_ok_iff.2 ⟨?_, rfl⟩
  have hnames := names_select (s := s) hne
  rw [names] at hnames
  rw [hnames]
  exact hp.filter _

theorem forall₂_select_select (hp : p ≠ []) (hq : q ≠ []) :
    List.Forall₂ s.FirstNamed (q.filter fun name => name ∈ p ∧ name ∈ s.names) ((s.select p).select q).fields := by
  have hnames : (q.filter (· ∈ p)).filter (· ∈ s.names) = q.filter fun name => name ∈ p ∧ name ∈ s.names := by
    simp [List.filter_filter, Bool.and_comm]
  rw [select_select hp hq, ← hnames]
  exact forall₂_filterMap_field? s (q.filter (· ∈ p))

/-- Names that were not both given and known select no fields, rather than all. -/
theorem select_select_eq_empty_iff (hp : p ≠ []) (hq : q ≠ []) :
    (s.select p).select q = .empty ↔ ∀ name ∈ q, name ∈ p → name ∉ s.names := by
  have hempty : (s.select p).select q = .empty ↔ ((s.select p).select q).fields = [] :=
    ⟨fun h => congrArg fields h, fun h => congrArg mk h⟩
  rw [hempty, ← List.length_eq_zero_iff, ← (forall₂_select_select hp hq).length_eq, List.length_eq_zero_iff,
    List.filter_eq_nil_iff]
  simp

/-- What the selections of names `p` from a schema have to do with each other and with a further selection of `q`. -/
structure CoherentSelection (s : Schema) (p q : List String) : Prop where
  all : s.select [] = s
  listed : p ≠ [] → List.Forall₂ s.FirstNamed (p.filter (· ∈ s.names)) (s.select p).fields
  strict_iff : (∃ r, s.trySelect p = .ok r) ↔ ∀ name ∈ p, name ∈ s.names
  strict_eq : ∀ r, s.trySelect p = .ok r → r = s.select p
  strict_error : ∀ e, s.trySelect p = .error e ↔ ∃ before name after, p = before ++ name :: after ∧
    (∀ n ∈ before, n ∈ s.names) ∧ name ∉ s.names ∧ e = .columnNotFound name
  twice : (s.select p).select p = s.select p
  composed : p ≠ [] → q ≠ [] →
    List.Forall₂ s.FirstNamed (q.filter fun name => name ∈ p ∧ name ∈ s.names) ((s.select p).select q).fields
  composed_empty : p ≠ [] → q ≠ [] →
    ((s.select p).select q = .empty ↔ ∀ name ∈ q, name ∈ p → name ∉ s.names)
  checked_iff : (∃ r, checked s.fields = .ok r) ↔ s.names.Nodup
  checked_select : (∃ r, checked s.fields = .ok r) → p.Nodup → checked (s.select p).fields = .ok (s.select p)

/-- The lenient selection lists the first field of each known name, and all fields if it is given no name at all; the
strict one is the same or fails with the first unknown name. A selection of selected fields is one of the names that
both were given, also where there is no such name, and keeps fields of different names so. -/
theorem select_coherent (s : Schema) (p q : List String) : s.CoherentSelection p q where
  all := select_nil s
  listed := forall₂_select
  strict_iff := by simp only [trySelect_eq_ok_iff, exists_and_left, exists_eq, and_true]
  strict_eq := fun r hr => (trySelect_eq_ok_iff.1 hr).2
  strict_error := fun e => trySelect_eq_error_iff
  twice := select_self s p
  composed := forall₂_select_select
  composed_empty := select_select_eq_empty_iff
  checked_iff := exists_checked_iff
  checked_select := by
    intro hs hp
    by_cases hne : p = []
    · subst hne
      exact checked_eq_ok_iff.2 ⟨exists_checked_iff.1 hs, rfl⟩
    · exact Schema.checked_select hne hp

/-- Of the two columns called item the first one is selected, twice if it is asked for twice; what was not selected
before is not selected again. -/
theorem select_coherent_items :
    let item : Field := ⟨"item", .text, false⟩
    let quantity : Field := ⟨"quantity", .int .w64, false⟩
    let s : Schema := ⟨[item, quantity, ⟨"item", .boolean, true⟩]⟩
    let p : List String := ["quantity", "price", "item"]
    List.Forall₂ s.FirstNamed ["quantity", "item"] (s.select p).fields ∧ (s.select p).fields = [quantity, item] ∧
      s.trySelect p = .error (.columnNotFound "price") ∧
      List.Forall₂ s.FirstNamed ["item", "item"] ((s.select p).select ["item", "price", "item"]).fields ∧
      (s.select ["price"]).select ["item"] = .empty ∧
      checked ((⟨[item, quantity]⟩ : Schema).select p).fields = .ok (Schema.select ⟨[item, quantity]⟩ p) := by
  intro item quantity s p
  have htwice := select_coherent s p ["item", "price", "item"]
  have hnone := select_coherent s ["price"] ["item"]
  have hdistinct := select_coherent ⟨[item, quantity]⟩ p []
  exact ⟨htwice.listed (by decide), rfl,
    (htwice.strict_error _).2 ⟨["quantity"], "price", ["item"], rfl, by decide, by decide, rfl⟩,
    htwice.composed (by decide) (by decide), (hnone.composed_empty (by decide) (by decide)).2 (by decide),
    hdistinct.checked_select (hdistinct.checked_iff.2 (by decide)) (by decide)⟩

end ColumnarQuery.Schema
