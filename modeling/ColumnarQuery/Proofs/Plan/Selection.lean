import ColumnarQuery.Proofs.Expr.Substitution
import ColumnarQuery.Proofs.Plan.Typing

/-!
# Moving selections

* `Physical.filterBatch_and`, `Physical.filterBatch_of_stacked` : one selection by a conjunction against two selections,
  of which the second does not look at the rows that the first drops;
* `Logical.Plan.stacked_filters_eq_conjunction` : the same of plans;
* `Physical.Plan.filter_before_project` : a selection after a projection can be made before it.
-/

namespace ColumnarQuery

/-! ## Two selections -/

namespace Physical

variable {b out : Batch} {p q : Expr}

theorem filterBatch_bind_eq_ok_iff :
    filterBatch p b >>= filterBatch q = .ok out ↔
      ∃ mp m, p.mask b = .ok mp ∧ q.mask (b.retain mp) = .ok m ∧ out = (b.retain mp).retain m := by
  constructor
  · intro h
    obtain ⟨mid, hmid, h⟩ := bind_eq_ok_iff.1 h
    rw [filterBatch_eq] at hmid h
    obtain ⟨mp, hmp, rfl⟩ := map_eq_ok_iff.1 hmid
    obtain ⟨m, hm, rfl⟩ := map_eq_ok_iff.1 h
    exact ⟨mp, m, hmp, hm, rfl⟩
  · intro h
    obtain ⟨mp, m, hmp, hm, rfl⟩ := h
    rw [filterBatch_eq, hmp, map_ok, ok_bind, filterBatch_eq, hm, map_ok]

theorem retain_retain_equiv (b : Batch) (mask keep : List Bool) :
    (b.retain (List.zipWith (· && ·) mask keep)).Equiv ((b.retain mask).retain (retain mask keep)) :=
  Batch.equiv_iff.2 ⟨rfl, by rw [Batch.rows_retain, Batch.rows_retain, Batch.rows_retain, retain_retain]⟩

/-- What a conjunction keeps, two selections keep. -/
theorem filterBatch_and (h : filterBatch (.binary (.connective .and) p q) b = .ok out) :
    ∃ kept, filterBatch p b >>= filterBatch q = .ok kept ∧ out.Equiv kept := by
  rw [filterBatch_eq] at h
  obtain ⟨m, hm, rfl⟩ := map_eq_ok_iff.1 h
  obtain ⟨mp, mq, hmp, hmq, rfl⟩ := Expr.mask_and_eq_ok_iff.1 hm
  exact ⟨_, filterBatch_bind_eq_ok_iff.2 ⟨mp, _, hmp, Expr.mask_retain hmq mp, rfl⟩, retain_retain_equiv b mp mq⟩

theorem type?_of_stacked (h : filterBatch p b >>= filterBatch q = .ok out) :
    q.type? b.schema.types = some .boolean := by
  obtain ⟨mp, m, -, hm, -⟩ := filterBatch_bind_eq_ok_iff.1 h
  exact (Expr.mask_eq_ok_iff.1 hm).1

/-- What two selections keep, a conjunction keeps, if the second predicate has a value on the dropped rows too. -/
theorem filterBatch_of_stacked {c : Column} (hq : q.evaluate b = .ok c)
    (h : filterBatch p b >>= filterBatch q = .ok out) :
    ∃ kept, filterBatch (.binary (.connective .and) p q) b = .ok kept ∧ out.Equiv kept := by
  obtain ⟨mq, hmq⟩ := Expr.exists_mask hq (type?_of_stacked h)
  obtain ⟨mp, m, hmp, hm, rfl⟩ := filterBatch_bind_eq_ok_iff.1 h
  -- The second mask on what the first keeps is told by the second mask on all rows.
  rw [Expr.mask_retain hmq mp, Except.ok.injEq] at hm
  subst hm
  have hand := Expr.mask_and_eq_ok_iff.2 ⟨mp, mq, hmp, hmq, rfl⟩
  exact ⟨_, by rw [filterBatch_eq, hand, map_ok], (retain_retain_equiv b mp mq).symm⟩

namespace Plan

variable {input : Plan} {bs : List Batch}

theorem execute_stacked_eq_ok_iff :
    (filter (filter input p) q).execute = .ok bs ↔
      ∃ mid, input.execute = .ok mid ∧ mid.mapM (fun b => filterBatch p b >>= filterBatch q) = .ok bs := by
  simp only [execute, bind_eq_ok_iff, mapM_bind_eq_ok_iff]
  constructor
  · intro h
    obtain ⟨kept, ⟨mid, hmid, hkept⟩, h⟩ := h
    exact ⟨mid, hmid, kept, hkept, h⟩
  · intro h
    obtain ⟨mid, hmid, kept, hkept, h⟩ := h
    exact ⟨kept, ⟨mid, hmid, hkept⟩, h⟩

theorem execute_stacked_of_and (h : (filter input (.binary (.connective .and) p q)).execute = .ok bs) :
    ∃ cs, (filter (filter input p) q).execute = .ok cs ∧ List.Forall₂ Batch.Equiv bs cs := by
  obtain ⟨mid, hmid, h⟩ := bind_eq_ok_iff.1 h
  obtain ⟨cs, hcs, hall⟩ := exists_mapM_forall₂ (fun b _ out hout => filterBatch_and (p := p) (q := q) hout) h
  exact ⟨cs, execute_stacked_eq_ok_iff.2 ⟨mid, hmid, hcs⟩, hall⟩

theorem execute_and_of_stacked (h : (filter (filter input p) q).execute = .ok bs)
    (hq : ∀ b : Batch, b.schema = input.schema → q.type? b.schema.types = some .boolean → ∃ c, q.evaluate b = .ok c) :
    ∃ cs, (filter input (.binary (.connective .and) p q)).execute = .ok cs ∧ List.Forall₂ Batch.Equiv bs cs := by
  obtain ⟨mid, hmid, h⟩ := execute_stacked_eq_ok_iff.1 h
  have hstep : ∀ b ∈ mid, ∀ out, filterBatch p b >>= filterBatch q = .ok out →
      ∃ kept, filterBatch (.binary (.connective .and) p q) b = .ok kept ∧ out.Equiv kept := by
    intro b hb out hout
    obtain ⟨c, hc⟩ := hq b (schema_of_mem_execute hmid hb) (type?_of_stacked hout)
    exact filterBatch_of_stacked hc hout
  obtain ⟨cs, hcs, hall⟩ := exists_mapM_forall₂ hstep h
  exact ⟨cs, by rw [execute, hmid, ok_bind, hcs], hall⟩

end Plan

end Physical

namespace Logical.Plan

theorem resolve_filter {input : Plan} {plan : Physical.Plan} {e : Expr} {pe : Physical.Expr}
    (hi : input.resolve = .ok plan) (he : e.resolve plan.schema = .ok pe) :
    (filter input e).resolve = .ok (.filter plan pe) := by
  rw [resolve, hi, ok_bind, he, ok_bind, pure_eq_ok]

/-- Two selections, one of what the other keeps, return what one selection by the conjunction returns, if that returns
anything. The conjunction has to evaluate the second predicate on the rows that the first drops too, where it can only
fail by an integer divided by zero. -/
theorem stacked_filters_eq_conjunction (input : Plan) (p q : Expr) :
    (∀ bs, (filter input (.binary (.connective .and) p q)).execute = .ok bs →
      ∃ cs, (filter (filter input p) q).execute = .ok cs ∧ List.Forall₂ Batch.Equiv bs cs) ∧
    ∀ s cs, input.schema = .ok s → q.NoIntegerDivision s → (filter (filter input p) q).execute = .ok cs →
      ∃ bs, (filter input (.binary (.connective .and) p q)).execute = .ok bs ∧ List.Forall₂ Batch.Equiv cs bs := by
  constructor
  · intro bs h
    obtain ⟨plan, hplan, h⟩ := bind_eq_ok_iff.1 h
    obtain ⟨i, pe, hi, hpe, rfl⟩ := resolve_filter_eq_ok hplan
    obtain ⟨pp, pq, hp, hq, rfl⟩ := Expr.resolve_binary_eq_ok hpe
    obtain ⟨cs, hcs, hall⟩ := Physical.Plan.execute_stacked_of_and h
    exact ⟨cs, by rw [execute, resolve_filter (resolve_filter hi hp) hq, ok_bind, hcs], hall⟩
  · intro s cs hs hd h
    obtain ⟨plan, hplan, h⟩ := bind_eq_ok_iff.1 h
    obtain ⟨inner, pq, hinner, hq, rfl⟩ := resolve_filter_eq_ok hplan
    obtain ⟨i, pp, hi, hp, rfl⟩ := resolve_filter_eq_ok hinner
    obtain rfl := eq_schema_of_resolve hi hs
    have hvalues : ∀ b : Batch, b.schema = i.schema → pq.type? b.schema.types = some .boolean →
        ∃ c, pq.evaluate b = .ok c := by
      intro b hb ht
      rw [hb] at ht
      exact Expr.exists_evaluate_of_noIntegerDivision hq hb ht hd
    obtain ⟨bs, hbs, hall⟩ := Physical.Plan.execute_and_of_stacked h hvalues
    have hand : (Expr.binary (.connective .and) p q).resolve i.schema = .ok (.binary (.connective .and) pp pq) := by
      rw [Expr.resolve, hp, ok_bind, show q.resolve i.schema = .ok pq from hq, ok_bind, pure_eq_ok]
    exact ⟨bs, by rw [execute, resolve_filter hi hand, ok_bind, hbs], hall⟩

/-- The deliveries of more than one nut. With a quotient by what the first predicate keeps from being zero, only the
stacked selections return anything. -/
theorem stacked_filters_eq_conjunction_deliveries :
    let scanned : Plan := .scan "deliveries" (Table.deliveries 2).source []
    let more : Expr := .binary (.comparison .gt) (.column "quantity") (.literal (.ofInt .w64 1))
    let nuts : Expr := .binary (.comparison .eq) (.column "item") (.literal (.text "nut"))
    let quotient : Expr := .binary (.comparison .gt) (.binary (.arithmetic .div) (.literal (.ofInt .w64 2))
      (.binary (.arithmetic .sub) (.column "quantity") (.literal (.ofInt .w64 1)))) (.literal (.ofInt .w64 0))
    (∃ bs cs, (filter scanned (.binary (.connective .and) more nuts)).execute = .ok bs ∧
      (filter (filter scanned more) nuts).execute = .ok cs ∧ List.Forall₂ Batch.Equiv bs cs) ∧
    (∃ cs bs, (filter (filter scanned more) nuts).execute = .ok cs ∧
      (filter scanned (.binary (.connective .and) more nuts)).execute = .ok bs ∧ List.Forall₂ Batch.Equiv cs bs) ∧
    (∃ cs, (filter (filter scanned more) quotient).execute = .ok cs) ∧
    (filter scanned (.binary (.connective .and) more quotient)).execute = .error .divisionByZero := by
  intro scanned more nuts quotient
  have hdivision : nuts.NoIntegerDivision (Table.deliveries 2).schema := ⟨trivial, trivial, fun _ _ hd => nomatch hd⟩
  obtain ⟨hstacked, hconjunction⟩ := stacked_filters_eq_conjunction scanned more nuts
  obtain ⟨cs, hcs, hall⟩ := hstacked _ rfl
  obtain ⟨bs, hbs, hall'⟩ := hconjunction _ _ rfl hdivision rfl
  exact ⟨⟨_, cs, rfl, hcs, hall⟩, ⟨_, bs, rfl, hbs, hall'⟩, ⟨_, rfl⟩, rfl⟩

end Logical.Plan

/-! ## A selection and a projection -/

namespace Physical

variable {schema : Schema} {es : List Expr} {b out : Batch} {q : Expr}

/-- What a selection keeps of a projected batch, the projection makes of what the substituted selection keeps. -/
theorem filterBatch_of_projected (h : projectBatch schema es b >>= filterBatch q = .ok out) :
    ∃ moved, filterBatch (q.subst es) b >>= projectBatch schema es = .ok moved ∧ out.Equiv moved := by
  obtain ⟨projected, hprojected, h⟩ := bind_eq_ok_iff.1 h
  rw [filterBatch_eq] at h
  obtain ⟨m, hm, rfl⟩ := map_eq_ok_iff.1 h
  obtain ⟨moved, hmoved, hequiv⟩ := projectBatch_retain hprojected m
  exact ⟨moved, by rw [filterBatch_eq, Expr.mask_subst hprojected hm, map_ok, ok_bind, hmoved], hequiv⟩

/-- A selection of computed columns can be made before they are computed, with the expressions in place of the columns:
it fails nowhere where the later one does not, and the same batches are returned. -/
theorem Plan.filter_before_project (input : Plan) (schema : Schema) (es : List Expr) (q : Expr) {bs : List Batch}
    (h : (filter (project input schema es) q).execute = .ok bs) :
    ∃ cs, (project (filter input (q.subst es)) schema es).execute = .ok cs ∧ List.Forall₂ Batch.Equiv bs cs := by
  obtain ⟨projected, hprojected, h⟩ := bind_eq_ok_iff.1 h
  obtain ⟨read, hread, hprojected⟩ := bind_eq_ok_iff.1 hprojected
  obtain ⟨cs, hcs, hall⟩ := exists_mapM_forall₂ (fun b _ out => filterBatch_of_projected)
    (mapM_bind_eq_ok_iff.2 ⟨projected, hprojected, h⟩)
  obtain ⟨kept, hkept, hcs⟩ := mapM_bind_eq_ok_iff.1 hcs
  exact ⟨cs, by rw [execute, execute, hread, ok_bind, hkept, ok_bind, hcs], hall⟩

/-- The doubled quantities above two, with the unit that they are in. -/
theorem Plan.filter_before_project_deliveries :
    let scanned : Plan := .scan (Table.deliveries 2).source []
    let schema : Schema := ⟨[⟨"doubled", .int .w64, true⟩, ⟨"unit", .text, true⟩]⟩
    let es : List Expr := [.binary (.arithmetic .mul) (.column 1) (.literal (.ofInt .w64 2)), .literal (.text "piece")]
    let q : Expr := .binary (.comparison .gt) (.column 0) (.literal (.ofInt .w64 2))
    (∃ bs cs, (filter (project scanned schema es) q).execute = .ok bs ∧
      (project (filter scanned (q.subst es)) schema es).execute = .ok cs ∧ List.Forall₂ Batch.Equiv bs cs) ∧
    (project (filter scanned (q.subst es)) schema es).execute.map Batch.allRows =
      .ok [[.ofInt .w64 4, .text "piece"], [.ofInt .w64 6, .text "piece"]] := by
  intro scanned schema es q
  obtain ⟨cs, hcs, hall⟩ := filter_before_project scanned schema es q rfl
  exact ⟨⟨_, cs, rfl, hcs, hall⟩, rfl⟩

end Physical

end ColumnarQuery
