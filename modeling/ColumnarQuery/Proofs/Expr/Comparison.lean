import ColumnarQuery.Proofs.Column.Comparison
import ColumnarQuery.Proofs.Expr.Predicate

/-!
# Comparisons as predicates

Where equality of two expressions can be computed, inequality can, and the selections by the two share out the rows of a
batch (`Physical.comparisons_coherent`).
-/

namespace ColumnarQuery

@[simp] theorem Column.truths_ofBools (bs : List Bool) : (ofBools bs).truths = bs := by
  simp [truths, Function.comp_def]

namespace Physical

variable {b : Batch} {p q : Expr} {c : Column}

theorem exists_evaluate_ne (h : (Expr.binary (.comparison .eq) p q).evaluate b = .ok c) :
    ∃ d, (Expr.binary (.comparison .ne) p q).evaluate b = .ok d ∧ c.type = .boolean ∧ d.type = .boolean ∧
      d.truths = c.truths.map (!·) := by
  rw [Expr.evaluate] at h ⊢
  obtain ⟨l, hl, h⟩ := bind_eq_ok_iff.1 h
  obtain ⟨r, hr, h⟩ := bind_eq_ok_iff.1 h
  obtain ⟨hlength, htype, -, -, -⟩ := Column.apply_eq_ok h
  obtain ⟨os, hos⟩ := Column.exists_orders htype
  rw [Column.apply_comparison hlength htype hos, Except.ok.injEq] at h
  subst h
  refine ⟨_, by rw [hl, ok_bind, hr, ok_bind, Column.apply_comparison hlength htype hos], rfl, rfl, ?_⟩
  rw [Column.truths_ofBools, Column.truths_ofBools, List.map_map]
  exact List.map_congr_left fun o _ => Comparison.holds_ne o

/-- The six comparisons fit together on any two columns of one length and type. Equality of values that are not in
floating point is that of the values, and their order is a strict total one. Where two expressions can be compared, the
rows of a batch on which they are equal and those on which they are not are all its rows, each of them once. -/
theorem comparisons_coherent :
    (∀ l r : Column, l.length = r.length → l.type = r.type → Column.Coherent l r) ∧
    (∀ t : DataType, t.isFloating = false →
      IsStrictTotalOrder {v : Value // v.type = t} fun v w => v.1.Before w.1) ∧
    ∀ (b : Batch) (p q : Expr) (c : Column), (Expr.binary (.comparison .eq) p q).evaluate b = .ok c →
      ∃ equal unequal, filterBatch (.binary (.comparison .eq) p q) b = .ok equal ∧
        filterBatch (.binary (.comparison .ne) p q) b = .ok unequal ∧
        equal.schema = b.schema ∧ unequal.schema = b.schema ∧
        equal.rows = picked c.truths b.rows ∧ unequal.rows = picked (c.truths.map (!·)) b.rows ∧
        (equal.rows ++ unequal.rows).Perm b.rows := by
  refine ⟨fun l r => Column.coherent, fun t => Value.isStrictTotalOrder_before, fun b p q c hc => ?_⟩
  obtain ⟨d, hd, hctype, hdtype, htruths⟩ := exists_evaluate_ne hc
  have hlength : c.truths.length = b.rows.length := by
    rw [Column.length_truths, Batch.length_rows, (Expr.evaluate_eq_ok hc).2.1]
  have hequal : filterBatch (.binary (.comparison .eq) p q) b = .ok (b.retain c.truths) :=
    filterBatch_eq_ok_iff.2 ⟨c, hc, hctype, rfl⟩
  have hunequal : filterBatch (.binary (.comparison .ne) p q) b = .ok (b.retain d.truths) :=
    filterBatch_eq_ok_iff.2 ⟨d, hd, hdtype, rfl⟩
  have hkept := Batch.rows_retain_eq_picked c.truths b
  have hdropped : (b.retain d.truths).rows = picked (c.truths.map (!·)) b.rows := by
    rw [Batch.rows_retain_eq_picked, htruths]
  refine ⟨_, _, hequal, hunequal, rfl, rfl, hkept, hdropped, ?_⟩
  rw [hkept, hdropped]
  exact picked_append_perm hlength

/-- A negative zero is equal to a positive one, and a NaN is only unequal to it; each of the two rows is selected once. -/
theorem comparisons_coherent_prices :
    let negative : Value := .float .double (.zero .double true)
    let positive : Value := .float .double (.zero .double false)
    let nan : Value := .float .double (.invalid .double)
    let prices : Column := .array (.float .double) #[negative, nan] (by decide)
    let b : Batch := ⟨⟨[⟨"price", .float .double, true⟩]⟩, [prices], 2, by decide, by decide⟩
    Column.HoldsAt .eq prices (.constant positive 2) 0 ∧
    (∀ c, Column.HoldsAt c prices (.constant positive 2) 1 ↔ c = .ne) ∧
    (∃ equal unequal, filterBatch (.binary (.comparison .eq) (.column 0) (.literal positive)) b = .ok equal ∧
      filterBatch (.binary (.comparison .ne) (.column 0) (.literal positive)) b = .ok unequal ∧
      equal.rows = [[negative]] ∧ unequal.rows = [[nan]]) ∧
    IsStrictTotalOrder {v : Value // v.type = .text} fun v w => v.1.Before w.1 := by
  intro negative positive nan prices b
  obtain ⟨hcoherent, htotal, hrows⟩ := comparisons_coherent
  obtain ⟨equal, unequal, hequal, hunequal, -, -, hequalRows, hunequalRows, -⟩ :=
    hrows b (.column 0) (.literal positive) _ rfl
  have hprices := hcoherent prices (.constant positive 2) rfl rfl
  exact ⟨⟨_, rfl, rfl⟩, hprices.unordered (a := nan) (b := positive) rfl rfl (.inl rfl),
    ⟨equal, unequal, hequal, hunequal, hequalRows, hunequalRows⟩, htotal _ rfl⟩

end Physical

end ColumnarQuery
