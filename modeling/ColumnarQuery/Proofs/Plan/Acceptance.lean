import ColumnarQuery.Proofs.Plan.Resolution
import ColumnarQuery.Proofs.Source.Rows

/-!
# Which plans have their columns found

`LocatedAs` : a plan by positions has the steps of one by names, each name at its first position. A plan has its columns
found exactly if it has a schema, its predicates have fields and no aggregate stands in its expressions, and it is then
located (`Logical.Plan.resolve_iff_resolvable`).
-/

namespace ColumnarQuery.Logical

/-! ## Expressions -/

namespace Expr

def AggregateFree : Expr → Prop
  | column _ | literal _ => True
  | binary _ left right => left.AggregateFree ∧ right.AggregateFree
  | aggregate _ _ => False
  | renamed expr _ => expr.AggregateFree

/-- An expression by positions computes what one by names does: each name stands at the first position that has it,
and renamings, however deep, are gone. -/
inductive LocatedAs (s : Schema) : Expr → Physical.Expr → Prop
  | column {name : String} {i : Nat} :
    s.names[i]? = some name → name ∉ s.names.take i → LocatedAs s (.column name) (.column i)
  | literal {v : Value} : LocatedAs s (.literal v) (.literal v)
  | binary {op : BinaryOp} {left right : Expr} {l r : Physical.Expr} :
    LocatedAs s left l → LocatedAs s right r → LocatedAs s (.binary op left right) (.binary op l r)
  | renamed {expr : Expr} {name : String} {pe : Physical.Expr} :
    LocatedAs s expr pe → LocatedAs s (.renamed expr name) pe

variable {s : Schema}

/-- The search for columns returns the expression by positions. -/
theorem resolve_eq_ok_iff {e : Expr} {pe : Physical.Expr} : e.resolve s = .ok pe ↔ e.LocatedAs s pe := by
  constructor
  · intro h
    induction e generalizing pe with
    | column name =>
      obtain ⟨i, hi, rfl⟩ := map_eq_ok_iff.1 h
      obtain ⟨hname, hfirst⟩ := Schema.indexOf_eq_ok_iff_firstAt.1 hi
      exact .column hname hfirst
    | literal v =>
      cases h
      exact .literal
    | binary op left right ihl ihr =>
      obtain ⟨l, r, hl, hr, rfl⟩ := resolve_binary_eq_ok h
      exact .binary (ihl hl) (ihr hr)
    | aggregate function input => cases h
    | renamed expr name ih => exact .renamed (ih h)
  · intro h
    induction h with
    | column hname hfirst => rw [resolve, Schema.indexOf_eq_ok_iff_firstAt.2 ⟨hname, hfirst⟩, map_ok]
    | literal => rfl
    | binary _ _ ihl ihr => rw [resolve, ihl, ok_bind, ihr, ok_bind, pure_eq_ok]
    | renamed _ ih => rw [resolve, ih]

theorem exists_indexOf_of_fieldNamed {name : String} {f : Field} (h : s.fieldNamed name = .ok f) :
    ∃ i, s.indexOf name = .ok i := by
  unfold Schema.fieldNamed at h
  split at h
  · rename_i g hg
    obtain ⟨i, -, hi, -⟩ := Schema.exists_indexOf hg
    exact ⟨i, hi⟩
  · cases h

/-- An expression has its columns found if it has a field and no aggregate stands in it. -/
theorem exists_resolve_iff {e : Expr} :
    (∃ pe, e.resolve s = .ok pe) ↔ (∃ f, e.fieldIn s = .ok f) ∧ e.AggregateFree := by
  constructor
  · rintro ⟨pe, h⟩
    refine ⟨exists_fieldIn h, ?_⟩
    have hloc := resolve_eq_ok_iff.1 h
    clear h
    induction hloc with
    | column => trivial
    | literal => trivial
    | binary _ _ ihl ihr => exact ⟨ihl, ihr⟩
    | renamed _ ih => exact ih
  · rintro ⟨⟨f, hf⟩, hfree⟩
    induction e generalizing f with
    | column name =>
      obtain ⟨i, hi⟩ := exists_indexOf_of_fieldNamed hf
      exact ⟨.column i, by rw [resolve, hi, map_ok]⟩
    | literal v => exact ⟨.literal v, rfl⟩
    | binary op left right ihl ihr =>
      rw [fieldIn] at hf
      obtain ⟨l, hl, hf⟩ := bind_eq_ok_iff.1 hf
      obtain ⟨r, hr, -⟩ := bind_eq_ok_iff.1 hf
      obtain ⟨pl, hpl⟩ := ihl hfree.1 l hl
      obtain ⟨pr, hpr⟩ := ihr hfree.2 r hr
      exact ⟨.binary op pl pr, by rw [resolve, hpl, ok_bind, hpr, ok_bind, pure_eq_ok]⟩
    | aggregate function input => exact hfree.elim
    | renamed expr name ih =>
      rw [fieldIn] at hf
      obtain ⟨g, hg, -⟩ := bind_eq_ok_iff.1 hf
      exact ih hfree g hg

theorem exists_mapM_resolve_iff {es : List Expr} :
    (∃ pes, es.mapM (·.resolve s) = .ok pes) ↔
      (∃ fs, es.mapM (·.fieldIn s) = .ok fs) ∧ ∀ e ∈ es, e.AggregateFree := by
  simp only [exists_mapM_eq_ok_iff, exists_resolve_iff, ← forall_and]

theorem mapM_resolve_eq_ok_iff {es : List Expr} {pes : List Physical.Expr} :
    es.mapM (·.resolve s) = .ok pes ↔ List.Forall₂ (LocatedAs s) es pes := by
  simp only [mapM_eq_ok_iff, resolve_eq_ok_iff]

end Expr

/-! ## Aggregates -/

namespace Aggregate

def LocatedAs (s : Schema) (a : Aggregate) (pa : Physical.Aggregate) : Prop :=
  pa.function = a.function ∧ a.input.LocatedAs s pa.input

variable {s : Schema}

theorem resolve_eq_ok_iff {a : Aggregate} {pa : Physical.Aggregate} :
    a.resolve s = .ok pa ↔ a.LocatedAs s pa := by
  rw [resolve, map_eq_ok_iff, LocatedAs]
  simp only [Expr.resolve_eq_ok_iff]
  constructor
  · rintro ⟨pe, hpe, rfl⟩
    exact ⟨rfl, hpe⟩
  · rintro ⟨hfn, hpe⟩
    exact ⟨pa.input, hpe, by rw [← hfn]⟩

theorem exists_fieldIn_iff {a : Aggregate} : (∃ f, a.fieldIn s = .ok f) ↔ ∃ f, a.input.fieldIn s = .ok f := by
  rw [fieldIn, toExpr, Expr.fieldIn]
  cases a.input.fieldIn s <;> simp

theorem exists_resolve_iff {a : Aggregate} :
    (∃ pa, a.resolve s = .ok pa) ↔ (∃ f, a.fieldIn s = .ok f) ∧ a.input.AggregateFree := by
  rw [exists_fieldIn_iff, ← Expr.exists_resolve_iff, resolve]
  cases a.input.resolve s <;> simp

theorem exists_mapM_resolve_iff {as : List Aggregate} :
    (∃ pas, as.mapM (·.resolve s) = .ok pas) ↔
      (∃ fs, as.mapM (·.fieldIn s) = .ok fs) ∧ ∀ a ∈ as, a.input.AggregateFree := by
  simp only [exists_mapM_eq_ok_iff, exists_resolve_iff, ← forall_and]

theorem mapM_resolve_eq_ok_iff {as : List Aggregate} {pas : List Physical.Aggregate} :
    as.mapM (·.resolve s) = .ok pas ↔ List.Forall₂ (LocatedAs s) as pas := by
  simp only [mapM_eq_ok_iff, resolve_eq_ok_iff]

end Aggregate

/-! ## Plans -/

namespace Plan

/-- The expressions of all steps: columns, predicates, keys and inputs of aggregates. -/
def expressions : Plan → List Expr
  | scan _ _ _ => []
  | project input exprs => input.expressions ++ exprs
  | filter input predicate => input.expressions ++ [predicate]
  | aggregate input keys aggregates => input.expressions ++ keys ++ aggregates.map (·.input)

/-- Every predicate has a field, which the schema of its step does not look at. -/
def PredicatesHaveFields : Plan → Prop
  | scan _ _ _ => True
  | project input _ | aggregate input _ _ => input.PredicatesHaveFields
  | filter input predicate =>
    input.PredicatesHaveFields ∧ ∃ s f, input.schema = .ok s ∧ predicate.fieldIn s = .ok f

/-- A plan by positions has the steps of one by names, in their order, each with its schema and with its expressions
located in the schema of the step before. -/
inductive LocatedAs : Plan → Physical.Plan → Prop
  | scan {path : String} {source : Source} {projection : List String} :
    LocatedAs (.scan path source projection) (.scan source projection)
  | project {input : Plan} {exprs : List Expr} {plan : Physical.Plan} {schema : Schema} {pexprs : List Physical.Expr} :
    LocatedAs input plan → (project input exprs).schema = .ok schema →
      List.Forall₂ (Expr.LocatedAs plan.schema) exprs pexprs →
      LocatedAs (.project input exprs) (.project plan schema pexprs)
  | filter {input : Plan} {predicate : Expr} {plan : Physical.Plan} {pe : Physical.Expr} :
    LocatedAs input plan → predicate.LocatedAs plan.schema pe → LocatedAs (.filter input predicate) (.filter plan pe)
  | aggregate {input : Plan} {keys : List Expr} {aggregates : List Aggregate} {plan : Physical.Plan} {schema : Schema}
    {pkeys : List Physical.Expr} {paggregates : List Physical.Aggregate} :
    LocatedAs input plan → (aggregate input keys aggregates).schema = .ok schema →
      List.Forall₂ (Expr.LocatedAs plan.schema) keys pkeys →
      List.Forall₂ (Aggregate.LocatedAs plan.schema) aggregates paggregates →
      LocatedAs (.aggregate input keys aggregates) (.aggregate plan schema pkeys paggregates)

/-- The search for columns keeps the steps, and returns no other plan than the located one. -/
theorem resolve_eq_ok_iff {p : Plan} {q : Physical.Plan} : p.resolve = .ok q ↔ p.LocatedAs q := by
  constructor
  · intro h
    have hs := schema_of_resolve h
    induction p generalizing q with
    | scan path source projection =>
      cases h
      exact .scan
    | project input exprs ih =>
      obtain ⟨plan, schema, pexprs, hplan, -, hpexprs, rfl⟩ := resolve_project_eq_ok h
      exact .project (ih hplan (schema_of_resolve hplan)) hs (Expr.mapM_resolve_eq_ok_iff.1 hpexprs)
    | filter input predicate ih =>
      obtain ⟨plan, pe, hplan, hpe, rfl⟩ := resolve_filter_eq_ok h
      exact .filter (ih hplan (schema_of_resolve hplan)) (Expr.resolve_eq_ok_iff.1 hpe)
    | aggregate input keys aggregates ih =>
      obtain ⟨plan, schema, pkeys, paggregates, hplan, -, hpkeys, hpaggregates, rfl⟩ := resolve_aggregate_eq_ok h
      exact .aggregate (ih hplan (schema_of_resolve hplan)) hs (Expr.mapM_resolve_eq_ok_iff.1 hpkeys)
        (Aggregate.mapM_resolve_eq_ok_iff.1 hpaggregates)
  · intro h
    induction h with
    | scan => rfl
    | project _ hs hexprs ih =>
      rw [schema, schema_of_resolve ih, ok_bind] at hs
      rw [resolve, ih, ok_bind, hs, ok_bind, Expr.mapM_resolve_eq_ok_iff.2 hexprs, ok_bind, pure_eq_ok]
    | filter _ hpredicate ih =>
      rw [resolve, ih, ok_bind, Expr.resolve_eq_ok_iff.2 hpredicate, ok_bind, pure_eq_ok]
    | aggregate _ hs hkeys haggregates ih =>
      rw [schema, schema_of_resolve ih, ok_bind] at hs
      rw [resolve, ih, ok_bind, hs, ok_bind, Expr.mapM_resolve_eq_ok_iff.2 hkeys, ok_bind,
        Aggregate.mapM_resolve_eq_ok_iff.2 haggregates, ok_bind, pure_eq_ok]

section Steps
variable {input : Plan} {plan : Physical.Plan} (hplan : input.resolve = .ok plan)
include hplan

theorem exists_resolve_project_iff {exprs : List Expr} :
    (∃ q, (project input exprs).resolve = .ok q) ↔
      (∃ s, (project input exprs).schema = .ok s) ∧ ∀ e ∈ exprs, e.AggregateFree := by
  rw [schema, schema_of_resolve hplan, ok_bind, resolve, hplan, ok_bind]
  simp only [bind_eq_ok_iff, pure_eq_ok, Except.ok.injEq]
  constructor
  · rintro ⟨_, s, hs, pes, hpes, -⟩
    exact ⟨⟨s, hs⟩, (Expr.exists_mapM_resolve_iff.1 ⟨pes, hpes⟩).2⟩
  · rintro ⟨⟨s, hs⟩, hfree⟩
    obtain ⟨fs, hfs, -⟩ := bind_eq_ok_iff.1 hs
    obtain ⟨pes, hpes⟩ := Expr.exists_mapM_resolve_iff.2 ⟨⟨fs, hfs⟩, hfree⟩
    exact ⟨_, s, hs, pes, hpes, rfl⟩

theorem exists_resolve_filter_iff {predicate : Expr} :
    (∃ q, (filter input predicate).resolve = .ok q) ↔
      (∃ s f, input.schema = .ok s ∧ predicate.fieldIn s = .ok f) ∧ predicate.AggregateFree := by
  rw [schema_of_resolve hplan, resolve, hplan, ok_bind]
  simp only [bind_eq_ok_iff, pure_eq_ok, Except.ok.injEq]
  constructor
  · rintro ⟨_, pe, hpe, -⟩
    obtain ⟨⟨f, hf⟩, hfree⟩ := Expr.exists_resolve_iff.1 ⟨pe, hpe⟩
    exact ⟨⟨_, f, rfl, hf⟩, hfree⟩
  · rintro ⟨⟨_, f, rfl, hf⟩, hfree⟩
    obtain ⟨pe, hpe⟩ := Expr.exists_resolve_iff.2 ⟨⟨f, hf⟩, hfree⟩
    exact ⟨_, pe, hpe, rfl⟩

theorem exists_resolve_aggregate_iff {keys : List Expr} {aggregates : List Aggregate} :
    (∃ q, (aggregate input keys aggregates).resolve = .ok q) ↔
      (∃ s, (aggregate input keys aggregates).schema = .ok s) ∧ (∀ e ∈ keys, e.AggregateFree) ∧
        ∀ a ∈ aggregates, a.input.AggregateFree := by
  rw [schema, schema_of_resolve hplan, ok_bind, resolve, hplan, ok_bind]
  simp only [bind_eq_ok_iff, pure_eq_ok, Except.ok.injEq]
  constructor
  · rintro ⟨_, s, hs, pkeys, hpkeys, pas, hpas, -⟩
    exact ⟨⟨s, hs⟩, (Expr.exists_mapM_resolve_iff.1 ⟨pkeys, hpkeys⟩).2,
      (Aggregate.exists_mapM_resolve_iff.1 ⟨pas, hpas⟩).2⟩
  · rintro ⟨⟨s, hs⟩, hkeys, haggregates⟩
    obtain ⟨kfs, hkfs, hrest⟩ := bind_eq_ok_iff.1 hs
    obtain ⟨afs, hafs, -⟩ := bind_eq_ok_iff.1 hrest
    obtain ⟨pkeys, hpkeys⟩ := Expr.exists_mapM_resolve_iff.2 ⟨⟨kfs, hkfs⟩, hkeys⟩
    obtain ⟨pas, hpas⟩ := Aggregate.exists_mapM_resolve_iff.2 ⟨⟨afs, hafs⟩, haggregates⟩
    exact ⟨_, s, hs, pkeys, hpkeys, pas, hpas, rfl⟩

end Steps

theorem exists_resolve_input {p input : Plan} (hinput : p.input? = some input) (h : ∃ q, p.resolve = .ok q) :
    ∃ plan, input.resolve = .ok plan := by
  obtain ⟨q, hq⟩ := h
  cases p with
  | scan path source projection => cases hinput
  | project input' exprs =>
    cases hinput
    obtain ⟨plan, -, -, hplan, -⟩ := resolve_project_eq_ok hq
    exact ⟨plan, hplan⟩
  | filter input' predicate =>
    cases hinput
    obtain ⟨plan, -, hplan, -⟩ := resolve_filter_eq_ok hq
    exact ⟨plan, hplan⟩
  | aggregate input' keys aggregates =>
    cases hinput
    obtain ⟨plan, -, -, -, hplan, -⟩ := resolve_aggregate_eq_ok hq
    exact ⟨plan, hplan⟩

/-- What a plan has to be for its columns to be found. -/
structure Resolvable (p : Plan) : Prop where
  schema : ∃ s, p.schema = .ok s
  predicates : p.PredicatesHaveFields
  aggregateFree : ∀ e ∈ p.expressions, e.AggregateFree

theorem exists_resolve_iff {p : Plan} : (∃ q, p.resolve = .ok q) ↔ p.Resolvable := by
  induction p with
  | scan path source projection =>
    exact ⟨fun _ => ⟨⟨_, rfl⟩, trivial, fun _ he => nomatch he⟩, fun _ => ⟨_, rfl⟩⟩
  | project input exprs ih =>
    constructor
    · intro h
      obtain ⟨plan, hplan⟩ := exists_resolve_input rfl h
      obtain ⟨hs, hfree⟩ := (exists_resolve_project_iff hplan).1 h
      obtain ⟨-, hpredicates, hinput⟩ := ih.1 ⟨plan, hplan⟩
      exact ⟨hs, hpredicates, List.forall_mem_append.2 ⟨hinput, hfree⟩⟩
    · rintro ⟨⟨s, hs⟩, hpredicates, hfree⟩
      obtain ⟨hinput, hexprs⟩ := List.forall_mem_append.1 hfree
      obtain ⟨s₀, hs₀, -⟩ := bind_eq_ok_iff.1 hs
      obtain ⟨plan, hplan⟩ := ih.2 ⟨⟨s₀, hs₀⟩, hpredicates, hinput⟩
      exact (exists_resolve_project_iff hplan).2 ⟨⟨s, hs⟩, hexprs⟩
  | filter input predicate ih =>
    constructor
    · intro h
      obtain ⟨plan, hplan⟩ := exists_resolve_input rfl h
      obtain ⟨hf, hfree⟩ := (exists_resolve_filter_iff hplan).1 h
      obtain ⟨hs, hpredicates, hinput⟩ := ih.1 ⟨plan, hplan⟩
      exact ⟨hs, ⟨hpredicates, hf⟩, List.forall_mem_append.2 ⟨hinput, List.forall_mem_singleton.2 hfree⟩⟩
    · rintro ⟨hs, ⟨hpredicates, hf⟩, hfree⟩
      obtain ⟨hinput, hpredicate⟩ := List.forall_mem_append.1 hfree
      obtain ⟨plan, hplan⟩ := ih.2 ⟨hs, hpredicates, hinput⟩
      exact (exists_resolve_filter_iff hplan).2 ⟨hf, List.forall_mem_singleton.1 hpredicate⟩
  | aggregate input keys aggregates ih =>
    have hsplit : (∀ e ∈ (aggregate input keys aggregates).expressions, e.AggregateFree) ↔
        (∀ e ∈ input.expressions, e.AggregateFree) ∧ (∀ e ∈ keys, e.AggregateFree) ∧
          ∀ a ∈ aggregates, a.input.AggregateFree := by
      rw [expressions, List.forall_mem_append, List.forall_mem_append, List.forall_mem_map, and_assoc]
    constructor
    · intro h
      obtain ⟨plan, hplan⟩ := exists_resolve_input rfl h
      obtain ⟨hs, hfree⟩ := (exists_resolve_aggregate_iff hplan).1 h
      obtain ⟨-, hpredicates, hinput⟩ := ih.1 ⟨plan, hplan⟩
      exact ⟨hs, hpredicates, hsplit.2 ⟨hinput, hfree⟩⟩
    · rintro ⟨⟨s, hs⟩, hpredicates, hfree⟩
      obtain ⟨hinput, hexprs⟩ := hsplit.1 hfree
      obtain ⟨s₀, hs₀, -⟩ := bind_eq_ok_iff.1 hs
      obtain ⟨plan, hplan⟩ := ih.2 ⟨⟨s₀, hs₀⟩, hpredicates, hinput⟩
      exact (exists_resolve_aggregate_iff hplan).2 ⟨⟨s, hs⟩, hexprs⟩

/-- A plan has its columns found exactly if it has a schema, all its predicates have fields, and no aggregate stands in
an expression that is computed row by row. The plan that is found has the same schema and the same steps, and each name
of an expression stands at the first position that the schema before it has for it. -/
theorem resolve_iff_resolvable (p : Plan) :
    ((∃ q, p.resolve = .ok q) ↔ p.Resolvable) ∧
      ∀ q, (p.resolve = .ok q → p.schema = .ok q.schema) ∧ (p.resolve = .ok q ↔ p.LocatedAs q) :=
  ⟨exists_resolve_iff, fun _ => ⟨schema_of_resolve, resolve_eq_ok_iff⟩⟩

/-- The deliveries of more than nothing, where the scan reads a column twice and the quantity is renamed twice. -/
def renamedTwice : Plan :=
  let scanned : Plan := .scan "deliveries" (Table.deliveries 2).source ["item", "quantity", "quantity"]
  let pieces : Expr := .renamed (.renamed (.column "quantity") "count") "pieces"
  .filter (.project scanned [.column "item", pieces])
    (.binary (.comparison .gt) (.column "pieces") (.literal (.ofInt .w64 0)))

/-- The total of all quantities, asked for as a column of each row. -/
def totalPerRow : Plan :=
  .project (.scan "deliveries" (Table.deliveries 2).source []) [.aggregate .sum (.column "quantity")]

/-- The first of two columns of a name is found behind two renamings; a plan with a schema that computes an aggregate
row by row is refused. -/
theorem resolve_iff_resolvable_deliveries :
    (∃ q, renamedTwice.resolve = .ok q ∧ renamedTwice.schema = .ok q.schema ∧ renamedTwice.LocatedAs q ∧
      q.format 0 = "SelectionExec: #1 > 0\n\tProjectionExec: #0, #1\n\t\tScanExec: " ++
        "schema=[item: Utf8, quantity: Int64, quantity: Int64], projection=[item, quantity, quantity]\n") ∧
    (∃ s, totalPerRow.schema = .ok s) ∧ ¬ ∃ q, totalPerRow.resolve = .ok q := by
  refine ⟨?_, ⟨_, rfl⟩, fun h => ?_⟩
  · obtain ⟨hschema, hlocated⟩ := (resolve_iff_resolvable renamedTwice).2 _
    exact ⟨_, rfl, hschema rfl, hlocated.1 rfl, by decide +kernel⟩
  · exact ((resolve_iff_resolvable totalPerRow).1.1 h).aggregateFree _ (List.mem_singleton.2 rfl)

end Plan

end ColumnarQuery.Logical
