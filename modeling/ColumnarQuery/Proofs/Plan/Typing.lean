import ColumnarQuery.Proofs.Plan.Failure

/-!
# Typed plans

`Logical.Plan.WellTyped` are the typing rules of operators, predicates and aggregates. A typed plan can fail by an integer
divided by zero only, and a plan in which an operator or a predicate is not typed fails on any batch
(`Logical.Plan.progress_of_wellTyped`).
-/

namespace ColumnarQuery.Logical

namespace Expr

/-- Every operator has operands of one type, which it accepts: booleans for connectives, numbers for arithmetic. -/
def OperatorsTyped (s : Schema) : Expr → Prop
  | column _ => True
  | literal _ => True
  | binary op left right =>
    left.OperatorsTyped s ∧ right.OperatorsTyped s ∧
      ∃ l r, left.fieldIn s = .ok l ∧ right.fieldIn s = .ok r ∧ l.type = r.type ∧ op.accepts l.type = true
  | aggregate _ input => input.OperatorsTyped s
  | renamed expr _ => expr.OperatorsTyped s

/-- No quotient and no remainder has an integer type. -/
def NoIntegerDivision (s : Schema) : Expr → Prop
  | column _ => True
  | literal _ => True
  | binary op left right =>
    left.NoIntegerDivision s ∧ right.NoIntegerDivision s ∧
      ∀ f, (binary op left right).fieldIn s = .ok f → op.divides = true → f.type.isInteger = false
  | aggregate _ input => input.NoIntegerDivision s
  | renamed expr _ => expr.NoIntegerDivision s

variable {s : Schema} {e : Expr} {pe : Physical.Expr} {b : Batch} {c : Cause}

theorem zeroDivisor_of_fails (h : e.resolve s = .ok pe) (hs : b.schema = s) (ht : e.OperatorsTyped s)
    (hf : pe.Fails b c) : c = .zeroDivisor := by
  induction e generalizing pe with
  | column name =>
    obtain ⟨i, -, rfl⟩ := map_eq_ok_iff.1 h
    cases hf
  | literal v =>
    cases h
    cases hf
  | binary op left right ihl ihr =>
    obtain ⟨l, r, hl, hr, rfl⟩ := resolve_binary_eq_ok h
    obtain ⟨htl, htr, fl, fr, hfl, hfr, htypes, hacc⟩ := ht
    cases hf with
    | left hf => exact ihl hl htl hf
    | right _ hf => exact ihr hr htr hf
    | operands hcl hcr hne =>
      have hcl' := (evaluate_of_resolve hfl hl hs hcl).2
      have hcr' := (evaluate_of_resolve hfr hr hs hcr).2
      exact absurd (by rw [hcl', hcr', htypes]) hne
    | operator hcl hcr _ hnot =>
      rw [(evaluate_of_resolve hfl hl hs hcl).2, hacc] at hnot
      cases hnot
    | zeroDivisor => rfl
  | aggregate function input => cases h
  | renamed expr name ih => exact ih h ht hf

theorem binaryField_type_of_divides {op : BinaryOp} (h : op.divides = true) (left : Field) :
    (binaryField op left).type = left.type := by
  cases op with
  | comparison => cases h
  | connective => cases h
  | arithmetic => rfl

theorem not_fails_zeroDivisor (h : e.resolve s = .ok pe) (hs : b.schema = s) (hd : e.NoIntegerDivision s) :
    ¬ pe.Fails b .zeroDivisor := by
  induction e generalizing pe with
  | column name =>
    obtain ⟨i, -, rfl⟩ := map_eq_ok_iff.1 h
    intro hf
    cases hf
  | literal v =>
    cases h
    intro hf
    cases hf
  | binary op left right ihl ihr =>
    obtain ⟨l, r, hl, hr, rfl⟩ := resolve_binary_eq_ok h
    obtain ⟨hdl, hdr, hnode⟩ := hd
    intro hf
    cases hf with
    | left hf => exact ihl hl hdl hf
    | right _ hf => exact ihr hr hdr hf
    | zeroDivisor hcl hcr ht _ hdiv hv hz =>
      obtain ⟨fl, hfl⟩ := exists_fieldIn hl
      obtain ⟨fr, hfr⟩ := exists_fieldIn hr
      have hnode := hnode (binaryField op fl) (by rw [fieldIn, hfl, ok_bind, hfr, ok_bind, pure_eq_ok]) hdiv
      have hint := Value.isInteger_of_isIntegerZero hz
      rw [Column.type_of_mem_toList hv, ← ht, (evaluate_of_resolve hfl hl hs hcl).2] at hint
      rw [binaryField_type_of_divides hdiv, hint] at hnode
      cases hnode
  | aggregate function input => cases h
  | renamed expr name ih => exact ih h hd

/-- An expression whose operators accept their operands by position is typed by name. -/
theorem operatorsTyped_of_type? {t : DataType} (h : e.resolve s = .ok pe) (ht : pe.type? s.types = some t) :
    e.OperatorsTyped s := by
  induction e generalizing pe t with
  | column name => trivial
  | literal v => trivial
  | binary op left right ihl ihr =>
    obtain ⟨l, r, hl, hr, rfl⟩ := resolve_binary_eq_ok h
    obtain ⟨u, hul, hur, hacc, -⟩ := Physical.Expr.type?_binary_eq_some_iff.1 ht
    obtain ⟨fl, hfl⟩ := exists_fieldIn hl
    obtain ⟨fr, hfr⟩ := exists_fieldIn hr
    have htl := (fieldType?_of_resolve hl hfl).symm.trans (Physical.Expr.fieldType?_of_type? hul)
    have htr := (fieldType?_of_resolve hr hfr).symm.trans (Physical.Expr.fieldType?_of_type? hur)
    rw [Option.some.injEq] at htl htr
    exact ⟨ihl hl hul, ihr hr hur, fl, fr, hfl, hfr, htl.trans htr.symm, by rw [htl, hacc]⟩
  | aggregate function input => cases h
  | renamed expr name ih => exact ih h ht

/-- A typed expression without an integer to divide has values on each batch. -/
theorem exists_evaluate_of_noIntegerDivision {t : DataType} (h : e.resolve s = .ok pe) (hs : b.schema = s)
    (ht : pe.type? s.types = some t) (hd : e.NoIntegerDivision s) : ∃ c, pe.evaluate b = .ok c := by
  cases hc : pe.evaluate b with
  | ok c => exact ⟨c, rfl⟩
  | error err =>
    have hfield := Physical.Expr.fieldType?_of_type? ht
    rw [← hs] at hfield
    obtain ⟨c, hf, -⟩ := (Physical.Expr.evaluate_eq_error_iff hfield).1 hc
    obtain rfl := zeroDivisor_of_fails h hs (operatorsTyped_of_type? h ht) hf
    exact absurd hf (not_fails_zeroDivisor h hs hd)

theorem operatorsTyped_of_mapM {exprs : List Expr} {pexprs : List Physical.Expr}
    (h : exprs.mapM (·.resolve s) = .ok pexprs) (ht : ∀ pe ∈ pexprs, ∃ t, pe.type? s.types = some t) :
    ∀ e ∈ exprs, e.OperatorsTyped s := by
  intro e he
  obtain ⟨pe, hpe⟩ := exists_mapM_eq_ok_iff.1 ⟨pexprs, h⟩ e he
  obtain ⟨t, ht⟩ := ht pe (mem_of_mapM_eq_ok h he hpe)
  exact operatorsTyped_of_type? hpe ht

end Expr

/-! ## Plans -/

namespace Plan

/-- Every expression of a plan has a property, under the schema of the step before it. -/
def Each (P : Schema → Expr → Prop) : Plan → Prop
  | scan _ _ _ => True
  | project input exprs => input.Each P ∧ ∃ s, input.schema = .ok s ∧ ∀ e ∈ exprs, P s e
  | filter input predicate => input.Each P ∧ ∃ s, input.schema = .ok s ∧ P s predicate
  | aggregate input keys aggregates =>
    input.Each P ∧ ∃ s, input.schema = .ok s ∧ (∀ e ∈ keys, P s e) ∧ ∀ a ∈ aggregates, P s a.input

def PredicatesBoolean : Plan → Prop
  | scan _ _ _ => True
  | project input _ => input.PredicatesBoolean
  | filter input predicate =>
    input.PredicatesBoolean ∧ ∃ s f, input.schema = .ok s ∧ predicate.fieldIn s = .ok f ∧ f.type = .boolean
  | aggregate input _ _ => input.PredicatesBoolean

/-- Every aggregate function accepts its inputs: numbers, but any values for counting. -/
def AggregatesAccepted : Plan → Prop
  | scan _ _ _ => True
  | project input _ | filter input _ => input.AggregatesAccepted
  | aggregate input _ aggregates =>
    input.AggregatesAccepted ∧ ∃ s, input.schema = .ok s ∧
      ∀ a ∈ aggregates, ∃ f, a.input.fieldIn s = .ok f ∧ a.function.accepts f.type = true

def OperatorsTyped (p : Plan) : Prop :=
  p.Each (fun s e => e.OperatorsTyped s) ∧ p.PredicatesBoolean

/-- Every operator, every predicate and every aggregate is typed. -/
def WellTyped (p : Plan) : Prop :=
  p.OperatorsTyped ∧ p.AggregatesAccepted

/-- No quotient and no remainder of the plan has an integer type. -/
def NoIntegerDivision (p : Plan) : Prop :=
  p.Each fun s e => e.NoIntegerDivision s

/-! ## Where typed plans fail -/

theorem eq_schema_of_resolve {p : Plan} {q : Physical.Plan} {s : Schema} (h : p.resolve = .ok q)
    (hs : p.schema = .ok s) : s = q.schema := by
  rw [schema_of_resolve h, Except.ok.injEq] at hs
  exact hs.symm

theorem exists_of_mem_zip_types {s : Schema} {aggregates : List Aggregate} {paggregates : List Physical.Aggregate}
    {b : Batch} {columns : List Column} {fn : AggregateFunction} {t : DataType}
    (hp : aggregates.mapM (·.resolve s) = .ok paggregates) (hs : b.schema = s)
    (hc : (paggregates.map (·.input)).mapM (·.evaluate b) = .ok columns)
    (hmem : (fn, t) ∈ (paggregates.map (·.function)).zip (columns.map Column.type)) :
    ∃ a ∈ aggregates, a.function = fn ∧ ∀ f, a.input.fieldIn s = .ok f → f.type = t := by
  induction aggregates generalizing paggregates columns with
  | nil =>
    cases hp
    cases hmem
  | cons a aggregates ih =>
    rw [List.mapM_cons] at hp
    obtain ⟨pa, hpa, hp⟩ := bind_eq_ok_iff.1 hp
    obtain ⟨pas, hpas, hp⟩ := bind_eq_ok_iff.1 hp
    cases hp
    rw [List.map_cons, List.mapM_cons] at hc
    obtain ⟨column, hcolumn, hc⟩ := bind_eq_ok_iff.1 hc
    obtain ⟨rest, hrest, hc⟩ := bind_eq_ok_iff.1 hc
    cases hc
    rw [List.map_cons, List.map_cons, List.zip_cons_cons, List.mem_cons] at hmem
    rcases hmem with heq | hmem
    · obtain ⟨pe, hpe, rfl⟩ := map_eq_ok_iff.1 hpa
      cases heq
      exact ⟨a, List.mem_cons_self, rfl, fun f hf => (Expr.evaluate_of_resolve hf hpe hs hcolumn).2.symm⟩
    · obtain ⟨a', ha', hfn, hft⟩ := ih hpas hrest hmem
      exact ⟨a', List.mem_cons_of_mem a ha', hfn, hft⟩

theorem not_aggregatesAccepted {input : Plan} {plan : Physical.Plan} {keys : List Expr} {aggregates : List Aggregate}
    {paggregates : List Physical.Aggregate} {b : Batch} {columns : List Column} {fn : AggregateFunction} {t : DataType}
    (hplan : input.resolve = .ok plan) (hp : aggregates.mapM (·.resolve plan.schema) = .ok paggregates)
    (hs : b.schema = plan.schema) (hc : (paggregates.map (·.input)).mapM (·.evaluate b) = .ok columns)
    (hr : AggregateInputs.refused? ((paggregates.map (·.function)).zip (columns.map Column.type)) = some (fn, t)) :
    ¬ (aggregate input keys aggregates).AggregatesAccepted := by
  intro h
  obtain ⟨-, s, hschema, hall⟩ := h
  obtain rfl := eq_schema_of_resolve hplan hschema
  obtain ⟨a, hmem, hfn, htype⟩ := exists_of_mem_zip_types hp hs hc (List.mem_of_find?_eq_some hr)
  obtain ⟨f, hf, hacc⟩ := hall a hmem
  rw [hfn, htype f hf, Physical.Plan.accepts_of_refused? hr] at hacc
  cases hacc

/-- A plan fails in an expression that has the property, by a predicate that is not boolean, or by an aggregate of a
wrong type. -/
inductive FailsAt (P : Schema → Expr → Prop) (p : Plan) : Cause → Prop
  | expr {s : Schema} {e : Expr} {pe : Physical.Expr} {b : Batch} {c : Cause} :
    P s e → e.resolve s = .ok pe → b.schema = s → pe.Fails b c → FailsAt P p c
  | predicate {t : DataType} : ¬ p.PredicatesBoolean → FailsAt P p (.predicate t)
  | aggregateInput {fn : AggregateFunction} {t : DataType} : ¬ p.AggregatesAccepted → FailsAt P p (.aggregateInput fn t)

variable {P : Schema → Expr → Prop} {p p' : Plan} {c : Cause}

theorem FailsAt.mono (h : p.FailsAt P c) (hp : p'.PredicatesBoolean → p.PredicatesBoolean)
    (ha : p'.AggregatesAccepted → p.AggregatesAccepted) : p'.FailsAt P c := by
  cases h with
  | expr he hpe hs hf => exact .expr he hpe hs hf
  | predicate hnot => exact .predicate fun h => hnot (hp h)
  | aggregateInput hnot => exact .aggregateInput fun h => hnot (ha h)

theorem failsAt_of_mem {s : Schema} {exprs : List Expr} {pexprs : List Physical.Expr} {pe : Physical.Expr} {b : Batch}
    (h : exprs.mapM (·.resolve s) = .ok pexprs) (hP : ∀ e ∈ exprs, P s e) (hs : b.schema = s) (hpe : pe ∈ pexprs)
    (hf : pe.Fails b c) : p.FailsAt P c := by
  obtain ⟨e, he, hres⟩ := exists_of_mem_mapM h hpe
  exact .expr (hP e he) hres hs hf

/-- A plan fails at such a place only. -/
theorem failsAt_of_fails {q : Physical.Plan} (h : p.resolve = .ok q) (hf : q.Fails c) (hP : p.Each P) :
    p.FailsAt P c := by
  induction p generalizing q with
  | scan path source projection =>
    cases h
    cases hf with
    | input hq _ => cases hq
  | project input exprs ih =>
    obtain ⟨plan, schema, pexprs, hplan, hschema, hpexprs, rfl⟩ := resolve_project_eq_ok h
    obtain ⟨hinput, s, hs, hexprs⟩ := hP
    obtain rfl := eq_schema_of_resolve hplan hs
    cases hf with
    | input hq hf =>
      cases hq
      exact (ih hplan hf hinput).mono (fun h => h) fun h => h
    | projected hbs hreach he hfail =>
      have hb := Physical.Plan.schema_of_mem_execute hbs hreach.mem
      exact failsAt_of_mem hpexprs hexprs hb he.mem hfail
  | filter input predicate ih =>
    obtain ⟨plan, pe, hplan, hpe, rfl⟩ := resolve_filter_eq_ok h
    obtain ⟨hinput, s, hs, hpredicate⟩ := hP
    obtain rfl := eq_schema_of_resolve hplan hs
    cases hf with
    | input hq hf =>
      cases hq
      exact (ih hplan hf hinput).mono (fun h => h.1) fun h => h
    | selected hbs hreach hfail =>
      exact .expr hpredicate hpe (Physical.Plan.schema_of_mem_execute hbs hreach.mem) hfail
    | predicate hbs hreach hcolumn hne =>
      refine .predicate fun hp => hne ?_
      obtain ⟨-, s, f, hs, hf, ht⟩ := hp
      obtain rfl := eq_schema_of_resolve hplan hs
      rw [← ht]
      exact (Expr.evaluate_of_resolve hf hpe (Physical.Plan.schema_of_mem_execute hbs hreach.mem) hcolumn).2
  | aggregate input keys aggregates ih =>
    obtain ⟨plan, schema, pkeys, paggregates, hplan, hschema, hpkeys, hpaggregates, rfl⟩ := resolve_aggregate_eq_ok h
    obtain ⟨hinput, s, hs, hkeys, haggregates⟩ := hP
    obtain rfl := eq_schema_of_resolve hplan hs
    cases hf with
    | input hq hf =>
      cases hq
      exact (ih hplan hf hinput).mono (fun h => h) fun h => h.1
    | key hbs hreach he hfail =>
      have hb := Physical.Plan.schema_of_mem_execute hbs hreach.mem
      exact failsAt_of_mem hpkeys hkeys hb he.mem hfail
    | aggregated hbs hreach _ he hfail =>
      obtain ⟨pa, hpa, rfl⟩ := List.mem_map.1 he.mem
      obtain ⟨a, hmem, ha⟩ := exists_of_mem_mapM hpaggregates hpa
      obtain ⟨pe, hpe, rfl⟩ := map_eq_ok_iff.1 ha
      exact .expr (haggregates a hmem) hpe (Physical.Plan.schema_of_mem_execute hbs hreach.mem) hfail
    | aggregateInput hbs hreach _ hinputs _ hr =>
      have hb := Physical.Plan.schema_of_mem_execute hbs hreach.mem
      exact .aggregateInput (not_aggregatesAccepted hplan hpaggregates hb hinputs hr)

theorem zeroDivisor_of_fails {q : Physical.Plan} (h : p.resolve = .ok q) (ht : p.WellTyped) (hf : q.Fails c) :
    c = .zeroDivisor := by
  cases failsAt_of_fails h hf ht.1.1 with
  | expr he hpe hs hfail => exact Expr.zeroDivisor_of_fails hpe hs he hfail
  | predicate hnot => exact absurd ht.1.2 hnot
  | aggregateInput hnot => exact absurd ht.2 hnot

theorem not_fails_zeroDivisor {q : Physical.Plan} (h : p.resolve = .ok q) (hd : p.NoIntegerDivision) :
    ¬ q.Fails .zeroDivisor := by
  intro hf
  cases failsAt_of_fails h hf hd with
  | expr he hpe hs hfail => exact Expr.not_fails_zeroDivisor hpe hs he hfail

/-! ## Plans that are not typed -/

theorem batched_of_stored (q : Physical.Plan) : q.Batched True := by
  induction q with
  | scan source projection => trivial
  | project input schema exprs ih => exact ih
  | filter input predicate ih => exact ih
  | aggregate input schema keys aggregates ih => trivial

theorem operatorsTyped_of_fits {q : Physical.Plan} (h : p.resolve = .ok q) (hf : q.Fits True) :
    p.OperatorsTyped := by
  induction p generalizing q with
  | scan path source projection => exact ⟨trivial, trivial⟩
  | project input exprs ih =>
    obtain ⟨plan, schema, pexprs, hplan, hschema, hpexprs, rfl⟩ := resolve_project_eq_ok h
    obtain ⟨hinput, hexprs⟩ := hf
    obtain ⟨heach, hpredicates⟩ := ih hplan hinput
    have htyped := Expr.operatorsTyped_of_mapM hpexprs (hexprs (batched_of_stored plan))
    exact ⟨⟨heach, _, schema_of_resolve hplan, htyped⟩, hpredicates⟩
  | filter input predicate ih =>
    obtain ⟨plan, pe, hplan, hpe, rfl⟩ := resolve_filter_eq_ok h
    obtain ⟨hinput, hpredicate⟩ := hf
    obtain ⟨heach, hpredicates⟩ := ih hplan hinput
    have ht := hpredicate (batched_of_stored plan)
    obtain ⟨f, hf⟩ := Expr.exists_fieldIn hpe
    have hfield := (Expr.fieldType?_of_resolve hpe hf).symm.trans (Physical.Expr.fieldType?_of_type? ht)
    exact ⟨⟨heach, _, schema_of_resolve hplan, Expr.operatorsTyped_of_type? hpe ht⟩,
      hpredicates, _, f, schema_of_resolve hplan, hf, Option.some.inj hfield⟩
  | aggregate input keys aggregates ih =>
    obtain ⟨plan, schema, pkeys, paggregates, hplan, hschema, hpkeys, hpaggregates, rfl⟩ := resolve_aggregate_eq_ok h
    obtain ⟨hinput, hfits⟩ := hf
    obtain ⟨heach, hpredicates⟩ := ih hplan hinput
    obtain ⟨hkeys, hinputs⟩ := hfits (batched_of_stored plan)
    have htyped := Expr.operatorsTyped_of_mapM hpkeys hkeys
    refine ⟨⟨heach, _, schema_of_resolve hplan, htyped, fun a ha => ?_⟩, hpredicates⟩
    obtain ⟨pa, hpa⟩ := exists_mapM_eq_ok_iff.1 ⟨paggregates, hpaggregates⟩ a ha
    obtain ⟨t, ht⟩ := hinputs pa (mem_of_mapM_eq_ok hpaggregates ha hpa)
    obtain ⟨pe, hpe, rfl⟩ := map_eq_ok_iff.1 hpa
    exact Expr.operatorsTyped_of_type? hpe ht

/-- A typed plan returns batches or divides an integer by zero, and the latter only if it divides integers. A plan with
an operator or a predicate that is not typed fails on any batch, even one without rows. -/
theorem progress_of_wellTyped {p : Plan} {t : Table} {q : Physical.Plan} (h : (p.reading t.source).resolve = .ok q) :
    ((p.reading t.source).WellTyped → (∃ bs, q.execute = .ok bs) ∨ q.execute = .error .divisionByZero) ∧
      ((p.reading t.source).WellTyped → (p.reading t.source).NoIntegerDivision → ∃ bs, q.execute = .ok bs) ∧
      (¬ (p.reading t.source).OperatorsTyped → t.batches ≠ [] → ∃ err, q.execute = .error err) := by
  have hsource := source_of_resolve_reading h
  have hconsistent := consistent_of_resolve h
  cases hexec : q.execute with
  | ok bs =>
    refine ⟨fun _ => .inl ⟨bs, rfl⟩, fun _ _ => ⟨bs, rfl⟩, fun hnot hne => ?_⟩
    obtain ⟨hfits, -⟩ := (Physical.Plan.execute_iff hsource hconsistent).1 ⟨bs, hexec, rfl⟩
    rw [eq_true hne] at hfits
    exact absurd (operatorsTyped_of_fits h hfits) hnot
  | error err =>
    obtain ⟨c, hfail, rfl⟩ := (Physical.Plan.execute_eq_error_iff hsource hconsistent).1 hexec
    refine ⟨fun ht => .inr ?_, fun ht hd => ?_, fun _ _ => ⟨_, rfl⟩⟩
    · rw [zeroDivisor_of_fails h ht hfail]
      rfl
    · rw [zeroDivisor_of_fails h ht hfail] at hfail
      exact absurd hfail (not_fails_zeroDivisor h hd)

theorem wellTyped_quantities : (quantities.reading (Table.deliveries 2).source).WellTyped := by
  have hfilter : (Plan.filter (.scan "deliveries" (Table.deliveries 2).source [])
      (.binary (.comparison .gt) (.column "quantity") (.literal (.ofInt .w64 0)))).OperatorsTyped :=
    ⟨⟨trivial, _, rfl, trivial, trivial, _, _, rfl, rfl, rfl, rfl⟩, trivial, _, _, rfl, rfl, rfl⟩
  refine ⟨⟨⟨hfilter.1, _, rfl, ?_, ?_⟩, hfilter.2⟩, trivial, _, rfl, ?_⟩
  · simp [Expr.OperatorsTyped]
  · simp [Expr.OperatorsTyped]
  · rw [List.forall_mem_cons, List.forall_mem_singleton]
    exact ⟨⟨_, rfl, rfl⟩, ⟨_, rfl, rfl⟩⟩

/-- No delivery, in one batch without rows. -/
def noDeliveries : Table where
  schema := (Table.deliveries 2).schema
  batches := [Batch.empty (Table.deliveries 2).schema]
  uniform := by simp [Batch.empty]

/-- The quantities of deliveries are typed; texts are compared with an integer even where there is no row. -/
theorem progress_of_wellTyped_deliveries :
    (∃ q bs, (quantities.reading (Table.deliveries 2).source).resolve = .ok q ∧ q.execute = .ok bs) ∧
      (∃ q, (quantities.reading (Table.deliveries 2).source).resolve = .ok q ∧
        ((∃ bs, q.execute = .ok bs) ∨ q.execute = .error .divisionByZero)) ∧
      ∃ q err, (numberedItems.reading noDeliveries.source).resolve = .ok q ∧ q.execute = .error err := by
  have hdivision : (quantities.reading (Table.deliveries 2).source).NoIntegerDivision := by
    refine ⟨⟨trivial, _, rfl, trivial, trivial, fun _ _ hd => nomatch hd⟩, _, rfl, ?_, ?_⟩
    · simp [Expr.NoIntegerDivision]
    · simp [Expr.NoIntegerDivision]
  have hmismatch : ¬ (numberedItems.reading noDeliveries.source).OperatorsTyped := by
    intro h
    obtain ⟨⟨-, s, hs, -, -, l, r, hl, hr, htypes, -⟩, -⟩ := h
    cases hs
    cases hl
    cases hr
    cases htypes
  obtain ⟨bs, hbs⟩ := (progress_of_wellTyped rfl).2.1 wellTyped_quantities hdivision
  obtain ⟨err, herr⟩ := (progress_of_wellTyped rfl).2.2 hmismatch (List.cons_ne_nil _ _)
  exact ⟨⟨_, bs, rfl, hbs⟩, ⟨_, rfl, (progress_of_wellTyped rfl).1 wellTyped_quantities⟩, _, err, rfl, herr⟩

end Plan

end ColumnarQuery.Logical
