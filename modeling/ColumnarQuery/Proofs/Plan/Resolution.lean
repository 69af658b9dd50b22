import ColumnarQuery.Logical.Resolution
import ColumnarQuery.Proofs.Plan.Meaning

/-!
# Plans with their columns found

An expression whose columns are found has a field, and the type of that field is the type by positions. So the schema of a
plan is the schema of its steps (`Logical.Plan.schema_of_resolve`).
-/

namespace ColumnarQuery.Logical

/-! ## Expressions -/

namespace Expr

variable {s : Schema}

theorem resolve_binary_eq_ok {op : BinaryOp} {left right : Expr} {pe : Physical.Expr}
    (h : (binary op left right).resolve s = .ok pe) :
    ∃ l r, left.resolve s = .ok l ∧ right.resolve s = .ok r ∧ pe = .binary op l r := by
  rw [resolve] at h
  obtain ⟨l, hl, h⟩ := bind_eq_ok_iff.1 h
  obtain ⟨r, hr, h⟩ := bind_eq_ok_iff.1 h
  exact ⟨l, r, hl, hr, (Except.ok.inj h).symm⟩

theorem exists_fieldIn {e : Expr} {pe : Physical.Expr} (h : e.resolve s = .ok pe) : ∃ f, e.fieldIn s = .ok f := by
  induction e generalizing pe with
  | column name =>
    obtain ⟨i, hi, -⟩ := map_eq_ok_iff.1 h
    have hlt := Schema.indexOf_lt hi
    refine ⟨s.fields[i], ?_⟩
    rw [fieldIn, Schema.fieldNamed, Schema.field?_of_indexOf hi, List.getElem?_eq_getElem]
  | literal v => exact ⟨_, rfl⟩
  | binary op left right ihl ihr =>
    obtain ⟨l, r, hl, hr, -⟩ := resolve_binary_eq_ok h
    obtain ⟨f, hf⟩ := ihl hl
    obtain ⟨g, hg⟩ := ihr hr
    exact ⟨binaryField op f, by rw [fieldIn, hf, ok_bind, hg, ok_bind, pure_eq_ok]⟩
  | aggregate function input => cases h
  | renamed expr name ih =>
    obtain ⟨f, hf⟩ := ih h
    exact ⟨f.withName name, by rw [fieldIn, hf, ok_bind, pure_eq_ok]⟩

theorem fieldType?_of_resolve {e : Expr} {pe : Physical.Expr} {f : Field} (h : e.resolve s = .ok pe)
    (hf : e.fieldIn s = .ok f) : pe.fieldType? s.types = some f.type := by
  induction e generalizing pe f with
  | column name =>
    obtain ⟨i, hi, rfl⟩ := map_eq_ok_iff.1 h
    rw [fieldIn, Schema.fieldNamed, Schema.field?_of_indexOf hi] at hf
    rw [Physical.Expr.fieldType?, Schema.types, List.getElem?_map]
    cases hget : s.fields[i]? with
    | none =>
      rw [hget] at hf
      cases hf
    | some g =>
      rw [hget] at hf
      rw [Except.ok.inj hf, Option.map_some]
  | literal v =>
    cases h
    cases hf
    rfl
  | binary op left right ihl ihr =>
    obtain ⟨l, r, hl, hr, rfl⟩ := resolve_binary_eq_ok h
    rw [fieldIn] at hf
    obtain ⟨g, hg, hf⟩ := bind_eq_ok_iff.1 hf
    obtain ⟨k, hk, hf⟩ := bind_eq_ok_iff.1 hf
    cases hf
    rw [Physical.Expr.fieldType?, ihl hl hg, ihr hr hk]
    rfl
  | aggregate function input => cases h
  | renamed expr name ih =>
    rw [fieldIn] at hf
    obtain ⟨g, hg, hf⟩ := bind_eq_ok_iff.1 hf
    cases hf
    show pe.fieldType? s.types = some g.type
    exact ih h hg

end Expr

/-! ## Schemas -/

theorem fields_of_checked {fields : List Field} {s : Schema} (h : Schema.checked fields = .ok s) :
    s.fields = fields := by
  rw [(Schema.checked_eq_ok_iff.1 h).2]

theorem fieldTypes_of_resolve {s : Schema} {es : List Expr} {pes : List Physical.Expr} {fields : List Field}
    (h : es.mapM (·.resolve s) = .ok pes) (hf : es.mapM (·.fieldIn s) = .ok fields) :
    pes.map (·.fieldType? s.types) = (fields.map Field.type).map some := by
  rw [List.map_map, ← List.forall₂_eq_eq_eq, List.forall₂_map_left_iff, List.forall₂_map_right_iff]
  exact forall₂_of_forall₂ (mapM_eq_ok_iff.1 h) (mapM_eq_ok_iff.1 hf) fun e pe f => Expr.fieldType?_of_resolve

theorem Aggregate.exists_input_field {s : Schema} {a : Aggregate} {pa : Physical.Aggregate} {f : Field}
    (h : a.resolve s = .ok pa) (hf : a.fieldIn s = .ok f) :
    ∃ t, pa.input.fieldType? s.types = some t ∧ f.type = pa.function.resultType t := by
  obtain ⟨pe, hpe, rfl⟩ := map_eq_ok_iff.1 h
  rw [fieldIn, toExpr, Expr.fieldIn] at hf
  obtain ⟨g, hg, hf⟩ := bind_eq_ok_iff.1 hf
  cases hf
  exact ⟨g.type, Expr.fieldType?_of_resolve hpe hg, rfl⟩

theorem exists_specs {s : Schema} {aggregates : List Aggregate} {paggregates : List Physical.Aggregate}
    {fields : List Field} (h : aggregates.mapM (·.resolve s) = .ok paggregates)
    (hf : aggregates.mapM (·.fieldIn s) = .ok fields) :
    ∃ specs : AggregateInputs,
      paggregates.map (fun a => (a.function, a.input.fieldType? s.types)) = specs.map (fun p => (p.1, some p.2)) ∧
        fields.map Field.type = specs.map fun p => p.1.resultType p.2 := by
  induction aggregates generalizing paggregates fields with
  | nil =>
    cases h
    cases hf
    exact ⟨[], rfl, rfl⟩
  | cons a aggregates ih =>
    rw [List.mapM_cons] at h hf
    obtain ⟨pa, hpa, h⟩ := bind_eq_ok_iff.1 h
    obtain ⟨pas, hpas, h⟩ := bind_eq_ok_iff.1 h
    cases h
    obtain ⟨f, hfa, hf⟩ := bind_eq_ok_iff.1 hf
    obtain ⟨fs, hfs, hf⟩ := bind_eq_ok_iff.1 hf
    cases hf
    obtain ⟨t, ht, hft⟩ := Aggregate.exists_input_field hpa hfa
    obtain ⟨specs, hspecs, htypes⟩ := ih hpas hfs
    refine ⟨(pa.function, t) :: specs, ?_, ?_⟩
    · rw [List.map_cons, List.map_cons, hspecs, ht]
    · rw [List.map_cons, List.map_cons, htypes, hft]

namespace Plan

/-! ## Steps -/

section Steps
variable {input : Plan} {q : Physical.Plan}

theorem resolve_project_eq_ok {exprs : List Expr} (h : (project input exprs).resolve = .ok q) :
    ∃ plan schema pexprs, input.resolve = .ok plan ∧ projectionSchema plan.schema exprs = .ok schema ∧
      exprs.mapM (·.resolve plan.schema) = .ok pexprs ∧ q = .project plan schema pexprs := by
  rw [resolve] at h
  obtain ⟨plan, hplan, h⟩ := bind_eq_ok_iff.1 h
  obtain ⟨schema, hschema, h⟩ := bind_eq_ok_iff.1 h
  obtain ⟨pexprs, hpexprs, h⟩ := bind_eq_ok_iff.1 h
  exact ⟨plan, schema, pexprs, hplan, hschema, hpexprs, (Except.ok.inj h).symm⟩

theorem resolve_filter_eq_ok {predicate : Expr} (h : (filter input predicate).resolve = .ok q) :
    ∃ plan pe, input.resolve = .ok plan ∧ predicate.resolve plan.schema = .ok pe ∧ q = .filter plan pe := by
  rw [resolve] at h
  obtain ⟨plan, hplan, h⟩ := bind_eq_ok_iff.1 h
  obtain ⟨pe, hpe, h⟩ := bind_eq_ok_iff.1 h
  exact ⟨plan, pe, hplan, hpe, (Except.ok.inj h).symm⟩

theorem resolve_aggregate_eq_ok {keys : List Expr} {aggregates : List Aggregate}
    (h : (aggregate input keys aggregates).resolve = .ok q) :
    ∃ plan schema pkeys paggregates, input.resolve = .ok plan ∧
      aggregateSchema plan.schema keys aggregates = .ok schema ∧ keys.mapM (·.resolve plan.schema) = .ok pkeys ∧
      aggregates.mapM (·.resolve plan.schema) = .ok paggregates ∧
      q = .aggregate plan schema pkeys paggregates := by
  rw [resolve] at h
  obtain ⟨plan, hplan, h⟩ := bind_eq_ok_iff.1 h
  obtain ⟨schema, hschema, h⟩ := bind_eq_ok_iff.1 h
  obtain ⟨pkeys, hpkeys, h⟩ := bind_eq_ok_iff.1 h
  obtain ⟨paggregates, hpaggregates, h⟩ := bind_eq_ok_iff.1 h
  exact ⟨plan, schema, pkeys, paggregates, hplan, hschema, hpkeys, hpaggregates, (Except.ok.inj h).symm⟩

end Steps

/-- The schema of a plan is the schema of its steps. -/
theorem schema_of_resolve {p : Plan} {q : Physical.Plan} (h : p.resolve = .ok q) : p.schema = .ok q.schema := by
  induction p generalizing q with
  | scan path source projection =>
    cases h
    rfl
  | project input exprs ih =>
    obtain ⟨plan, schema, pexprs, hplan, hschema, -, rfl⟩ := resolve_project_eq_ok h
    rw [Plan.schema, ih hplan, ok_bind, hschema]
    rfl
  | filter input predicate ih =>
    obtain ⟨plan, pe, hplan, -, rfl⟩ := resolve_filter_eq_ok h
    rw [Plan.schema, ih hplan]
    rfl
  | aggregate input keys aggregates ih =>
    obtain ⟨plan, schema, pkeys, paggregates, hplan, hschema, -, -, rfl⟩ := resolve_aggregate_eq_ok h
    rw [Plan.schema, ih hplan, ok_bind, hschema]
    rfl

/-- The schema of each step tells the types of its fields. -/
theorem consistent_of_resolve {p : Plan} {q : Physical.Plan} (h : p.resolve = .ok q) : q.Consistent := by
  induction p generalizing q with
  | scan path source projection =>
    cases h
    trivial
  | project input exprs ih =>
    obtain ⟨plan, schema, pexprs, hplan, hschema, hpexprs, rfl⟩ := resolve_project_eq_ok h
    obtain ⟨fields, hfields, hchecked⟩ := bind_eq_ok_iff.1 hschema
    refine ⟨ih hplan, ?_⟩
    rw [fieldTypes_of_resolve hpexprs hfields, Schema.types, fields_of_checked hchecked]
  | filter input predicate ih =>
    obtain ⟨plan, pe, hplan, hpe, rfl⟩ := resolve_filter_eq_ok h
    obtain ⟨f, hf⟩ := Expr.exists_fieldIn hpe
    exact ⟨ih hplan, f.type, Expr.fieldType?_of_resolve hpe hf⟩
  | aggregate input keys aggregates ih =>
    obtain ⟨plan, schema, pkeys, paggregates, hplan, hschema, hpkeys, hpaggregates, rfl⟩ := resolve_aggregate_eq_ok h
    obtain ⟨keyFields, hkeyFields, hschema⟩ := bind_eq_ok_iff.1 hschema
    obtain ⟨aggFields, haggFields, hchecked⟩ := bind_eq_ok_iff.1 hschema
    obtain ⟨specs, hspecs, htypes⟩ := exists_specs hpaggregates haggFields
    refine ⟨ih hplan, keyFields.map Field.type, specs, ⟨fieldTypes_of_resolve hpkeys hkeyFields, hspecs⟩, ?_⟩
    rw [Schema.types, fields_of_checked hchecked, List.map_append, htypes]

/-! ## Sources -/

def reading (source : Source) : Plan → Plan
  | scan path _ projection => scan path source projection
  | project input exprs => project (input.reading source) exprs
  | filter input predicate => filter (input.reading source) predicate
  | aggregate input keys aggregates => aggregate (input.reading source) keys aggregates

theorem source_of_resolve_reading {p : Plan} {source : Source} {q : Physical.Plan}
    (h : (p.reading source).resolve = .ok q) : q.source = source := by
  induction p generalizing q with
  | scan path _ projection =>
    cases h
    rfl
  | project input exprs ih =>
    obtain ⟨plan, schema, pexprs, hplan, -, -, rfl⟩ := resolve_project_eq_ok h
    show plan.source = source
    exact ih hplan
  | filter input predicate ih =>
    obtain ⟨plan, pe, hplan, -, rfl⟩ := resolve_filter_eq_ok h
    show plan.source = source
    exact ih hplan
  | aggregate input keys aggregates ih =>
    obtain ⟨plan, schema, pkeys, paggregates, hplan, -, -, -, rfl⟩ := resolve_aggregate_eq_ok h
    show plan.source = source
    exact ih hplan

/-- How much there is of each item, in deliveries of more than nothing. -/
def quantities : Plan :=
  let scanned : Plan := .scan "deliveries" (.fixed .empty []) []
  let positive : Plan := .filter scanned (.binary (.comparison .gt) (.column "quantity") (.literal (.ofInt .w64 0)))
  .aggregate positive [.column "item"] [⟨.sum, .column "quantity"⟩, ⟨.count, .column "quantity"⟩]

end Plan

end ColumnarQuery.Logical
