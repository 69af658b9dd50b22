import ColumnarQuery.Proofs.Column.Mask
import ColumnarQuery.Proofs.Plan.RowSteps

/-!
# Predicates as masks

`Physical.Expr.mask` : at which rows of a batch a predicate is true. On some of the rows the mask is what these rows have of
it (`Physical.Expr.mask_retain`), and that of a conjunction needs both masks on all rows.
-/

namespace ColumnarQuery

theorem Value.boolean_of_type {v : Value} (h : v.type = .boolean) : boolean (v.boolean? = some true) = v := by
  cases v with
  | boolean b => cases b <;> rfl
  | _ => cases h

theorem Column.mask_eq_ok_iff {c : Column} {m : List Bool} :
    c.mask = .ok m ↔ c.type = .boolean ∧ c.toList = m.map Value.boolean := by
  rw [mask]
  split
  · rename_i hb
    rw [Except.ok.injEq]
    constructor
    · intro h
      subst h
      have hvalues : c.toList.map (fun v => Value.boolean (v.boolean? = some true)) = c.toList.map id :=
        List.map_congr_left fun v hv => Value.boolean_of_type ((type_of_mem_toList hv).trans hb)
      refine ⟨hb, ?_⟩
      rw [List.map_map, Function.comp_def, hvalues, List.map_id]
    · intro h
      obtain ⟨-, h⟩ := h
      rw [h, List.map_map]
      exact (List.map_congr_left fun b _ => by simp [Value.boolean?]).trans (List.map_id m)
  · rename_i hb
    constructor
    · intro h
      cases h
    · intro h
      exact absurd h.1 hb

theorem Value.apply_and_eq_ok_iff {a b v : Value} :
    a.apply (.connective .and) b = .ok v ↔ ∃ x y, a = .boolean x ∧ b = .boolean y ∧ v = .boolean (x && y) := by
  cases a <;> cases b <;> simp [apply, Connective.apply, eq_comm]

theorem mapM_and_eq_ok_iff {ls rs : List Value} {m : List Bool} (hl : ls.length = rs.length) :
    ((ls.zip rs).mapM fun p => p.1.apply (.connective .and) p.2) = .ok (m.map Value.boolean) ↔
      ∃ ml mr, ls = ml.map Value.boolean ∧ rs = mr.map Value.boolean ∧ m = List.zipWith (· && ·) ml mr := by
  induction ls generalizing rs m with
  | nil =>
    obtain rfl := List.length_eq_zero_iff.1 hl.symm
    simp [eq_comm]
  | cons l ls ih =>
    cases rs with
    | nil => cases hl
    | cons r rs =>
      have htail : ls.length = rs.length := Nat.succ.inj hl
      rw [List.zip_cons_cons, List.mapM_cons, bind_eq_ok_iff]
      simp only [bind_eq_ok_iff, Value.apply_and_eq_ok_iff, pure_eq_ok, Except.ok.injEq]
      constructor
      · intro h
        obtain ⟨_, ⟨x, y, rfl, rfl, rfl⟩, vs, hvs, hm⟩ := h
        cases m with
        | nil => cases hm
        | cons b m =>
          rw [List.map_cons, List.cons.injEq, Value.boolean.injEq] at hm
          obtain ⟨rfl, rfl⟩ := hm
          obtain ⟨ml, mr, rfl, rfl, rfl⟩ := (ih htail).1 hvs
          exact ⟨x :: ml, y :: mr, rfl, rfl, rfl⟩
      · intro h
        obtain ⟨ml, mr, hml, hmr, rfl⟩ := h
        cases ml with
        | nil => cases hml
        | cons x ml =>
          cases mr with
          | nil => cases hmr
          | cons y mr =>
            rw [List.map_cons, List.cons.injEq] at hml hmr
            obtain ⟨rfl, rfl⟩ := hml
            obtain ⟨rfl, rfl⟩ := hmr
            exact ⟨_, ⟨x, y, rfl, rfl, rfl⟩, _, (ih htail).2 ⟨ml, mr, rfl, rfl, rfl⟩, rfl⟩

namespace Physical

/-- At which rows of a batch a predicate is true. -/
def Expr.mask (predicate : Expr) (b : Batch) : Except Error (List Bool) := do
  (← predicate.evaluate b).mask

variable {b : Batch} {m : List Bool}

/-- The lengths agree, so that a selection fails with its predicate only. -/
theorem filterBatch_eq (predicate : Expr) (b : Batch) : filterBatch predicate b = b.retain <$> predicate.mask b := by
  rw [filterBatch, Expr.mask]
  cases hc : predicate.evaluate b with
  | error e => rfl
  | ok c =>
    rw [ok_bind, ok_bind, Batch.filter, if_pos (Expr.evaluate_eq_ok hc).2.1]
    cases c.mask <;> rfl

theorem filterBatch_eq_ok_iff {predicate : Expr} {out : Batch} :
    filterBatch predicate b = .ok out ↔
      ∃ c, predicate.evaluate b = .ok c ∧ c.type = .boolean ∧ out = b.retain c.truths := by
  rw [filterBatch_eq, map_eq_ok_iff]
  constructor
  · rintro ⟨m, hm, rfl⟩
    obtain ⟨c, hc, hm⟩ := bind_eq_ok_iff.1 hm
    have htype := (Column.mask_eq_ok_iff.1 hm).1
    rw [Column.mask_of_boolean htype, Except.ok.injEq] at hm
    exact ⟨c, hc, htype, by rw [hm]⟩
  · rintro ⟨c, hc, htype, rfl⟩
    exact ⟨c.truths, by rw [Expr.mask, hc, ok_bind, Column.mask_of_boolean htype], rfl⟩

theorem exists_filterBatch_iff {predicate : Expr} :
    (∃ out, filterBatch predicate b = .ok out) ↔ ∃ c, predicate.evaluate b = .ok c ∧ c.type = .boolean := by
  simp only [filterBatch_eq_ok_iff]
  constructor
  · rintro ⟨_, c, hc, htype, -⟩
    exact ⟨c, hc, htype⟩
  · rintro ⟨c, hc, htype⟩
    exact ⟨_, c, hc, htype, rfl⟩

namespace Expr

theorem mask_eq_ok_iff {e : Expr} :
    e.mask b = .ok m ↔
      e.type? b.schema.types = some .boolean ∧ b.rows.mapM (fun row => e.onRow row) = .ok (m.map Value.boolean) := by
  rw [mask, bind_eq_ok_iff]
  constructor
  · intro h
    obtain ⟨c, hc, hm⟩ := h
    obtain ⟨htype, hvalues⟩ := Column.mask_eq_ok_iff.1 hm
    obtain ⟨ht, -, hv⟩ := evaluate_eq_ok hc
    rw [htype] at ht
    rw [hvalues] at hv
    exact ⟨ht, hv⟩
  · intro h
    obtain ⟨ht, hv⟩ := h
    obtain ⟨c, hc, htype, hvalues⟩ := exists_evaluate ht hv
    exact ⟨c, hc, Column.mask_eq_ok_iff.2 ⟨htype, hvalues⟩⟩

theorem exists_mask {e : Expr} {c : Column} (h : e.evaluate b = .ok c) (ht : e.type? b.schema.types = some .boolean) :
    ∃ m, e.mask b = .ok m := by
  have htype := (evaluate_eq_ok h).1
  rw [ht, Option.some.injEq] at htype
  exact ⟨_, by rw [mask, h, ok_bind, Column.mask, if_pos htype.symm]⟩

/-- Evaluation commutes with a selection of rows. -/
theorem mask_retain {e : Expr} (h : e.mask b = .ok m) (keep : List Bool) :
    e.mask (b.retain keep) = .ok (retain keep m) := by
  obtain ⟨ht, hv⟩ := mask_eq_ok_iff.1 h
  refine mask_eq_ok_iff.2 ⟨ht, ?_⟩
  rw [Batch.rows_retain, mapM_retain hv, retain_map]

/-- A conjunction looks at both predicates on all rows. -/
theorem mask_and_eq_ok_iff {p q : Expr} :
    (binary (.connective .and) p q).mask b = .ok m ↔
      ∃ mp mq, p.mask b = .ok mp ∧ q.mask b = .ok mq ∧ m = List.zipWith (· && ·) mp mq := by
  simp only [mask_eq_ok_iff, type?_binary_eq_some_iff, mapM_onRow_binary]
  constructor
  · intro h
    obtain ⟨⟨u, hp, hq, hu, -⟩, ls, rs, hls, hrs, hm⟩ := h
    obtain rfl : u = .boolean := of_decide_eq_true hu
    have hl := (length_of_mapM_eq_ok hls).trans (length_of_mapM_eq_ok hrs).symm
    obtain ⟨mp, mq, rfl, rfl, rfl⟩ := (mapM_and_eq_ok_iff hl).1 hm
    exact ⟨mp, mq, ⟨hp, hls⟩, ⟨hq, hrs⟩, rfl⟩
  · intro h
    obtain ⟨mp, mq, ⟨hp, hls⟩, ⟨hq, hrs⟩, rfl⟩ := h
    have hl := (length_of_mapM_eq_ok hls).trans (length_of_mapM_eq_ok hrs).symm
    exact ⟨⟨.boolean, hp, hq, rfl, rfl⟩, _, _, hls, hrs, (mapM_and_eq_ok_iff hl).2 ⟨mp, mq, rfl, rfl, rfl⟩⟩

end Expr

end Physical

end ColumnarQuery
