import ColumnarQuery.Proofs.Batch.Storage
import ColumnarQuery.Proofs.Expr.Evaluation

/-!
# When an expression has values

An expression has values on a batch exactly if its columns are there, it has a type by the rules of its operators, and no
integer is divided by what is zero on a row (`Physical.Expr.exists_evaluate_iff`). On some of the rows it has the values at
their places (`Physical.Expr.evaluate_retain`).
-/

namespace ColumnarQuery.Physical.Expr

/-! ## Columns and types -/

def ColumnsBelow (n : Nat) : Expr → Prop
  | column i => i < n
  | literal _ => True
  | binary _ left right => left.ColumnsBelow n ∧ right.ColumnsBelow n

/-- The typing rules, over columns of the given types. -/
inductive HasType (types : List DataType) : Expr → DataType → Prop
  | column {i : Nat} {t : DataType} (h : types[i]? = some t) : HasType types (column i) t
  | literal (v : Value) : HasType types (literal v) v.type
  | comparison (c : Comparison) {left right : Expr} {t : DataType} (hl : HasType types left t)
    (hr : HasType types right t) : HasType types (binary (.comparison c) left right) .boolean
  | connective (k : Connective) {left right : Expr} (hl : HasType types left .boolean)
    (hr : HasType types right .boolean) : HasType types (binary (.connective k) left right) .boolean
  | arithmetic (f : Arithmetic) {left right : Expr} {t : DataType} (hl : HasType types left t)
    (hr : HasType types right t) (hn : t.isNumeric = true) : HasType types (binary (.arithmetic f) left right) t

variable {types : List DataType} {e left right : Expr} {op : BinaryOp} {t : DataType} {row : Row}

theorem hasType_iff : HasType types e t ↔ e.type? types = some t := by
  constructor
  · intro h
    induction h with
    | column h => exact h
    | literal v => rfl
    | comparison c _ _ ihl ihr => exact type?_binary_eq_some_iff.2 ⟨_, ihl, ihr, rfl, rfl⟩
    | connective k _ _ ihl ihr => exact type?_binary_eq_some_iff.2 ⟨_, ihl, ihr, rfl, rfl⟩
    | arithmetic f _ _ hn ihl ihr => exact type?_binary_eq_some_iff.2 ⟨_, ihl, ihr, hn, rfl⟩
  · intro h
    induction e generalizing t with
    | column i => exact .column h
    | literal v => exact Option.some.inj h ▸ .literal v
    | binary op left right ihl ihr =>
      obtain ⟨u, hl, hr, ha, rfl⟩ := type?_binary_eq_some_iff.1 h
      cases op with
      | comparison c => exact .comparison c (ihl hl) (ihr hr)
      | connective k =>
        obtain rfl : u = .boolean := of_decide_eq_true ha
        exact .connective k (ihl hl) (ihr hr)
      | arithmetic f => exact .arithmetic f (ihl hl) (ihr hr) ha

theorem columnsBelow_of_hasType (h : HasType types e t) : e.ColumnsBelow types.length := by
  induction h with
  | column h => exact (List.getElem?_eq_some_iff.1 h).1
  | literal v => trivial
  | comparison _ _ _ ihl ihr => exact ⟨ihl, ihr⟩
  | connective _ _ _ ihl ihr => exact ⟨ihl, ihr⟩
  | arithmetic _ _ _ _ ihl ihr => exact ⟨ihl, ihr⟩

/-! ## Divisions by zero -/

/-- Somewhere in the expression, at any depth, an integer is divided by what is zero on the row. -/
def DividesByZero (types : List DataType) (row : Row) : Expr → Prop
  | column _ => False
  | literal _ => False
  | binary op left right =>
    left.DividesByZero types row ∨ right.DividesByZero types row ∨
      op.divides = true ∧ ∃ w, HasType types (binary op left right) (.int w) ∧ right.onRow row = .ok (.int w 0)

/-- Whether a typed operator divides an integer by zero is seen from the value on its right. -/
theorem zero_divisor_iff {v : Value} (hl : left.type? types = some v.type) (hr : right.type? types = some v.type)
    (ha : op.accepts v.type = true) (hv : right.onRow row = .ok v) :
    (op.divides = true ∧ ∃ w, HasType types (binary op left right) (.int w) ∧ right.onRow row = .ok (.int w 0)) ↔
      op.divides = true ∧ v.isIntegerZero = true := by
  refine and_congr_right fun hd => ?_
  constructor
  · rintro ⟨w, -, hzero⟩
    rw [hv, Except.ok.injEq] at hzero
    simp [hzero, Value.isIntegerZero]
  · intro hzero
    cases v with
    | int w n =>
      obtain rfl : n = 0 := of_decide_eq_true hzero
      exact ⟨w, hasType_iff.2 (type?_binary_eq_some_iff.2 ⟨_, hl, hr, ha, BinaryOp.resultType_of_divides hd _⟩), hv⟩
    | _ => cases hzero

/-- On a row of the columns' types only a division by zero keeps a typed expression from having a value. -/
theorem exists_onRow_iff (hrow : row.map Value.type = types) (ht : HasType types e t) :
    (∃ v, e.onRow row = .ok v) ↔ ¬ e.DividesByZero types row := by
  rw [hasType_iff] at ht
  induction e generalizing t with
  | column i =>
    rw [type?, ← hrow, List.getElem?_map, Option.map_eq_some_iff] at ht
    obtain ⟨v, hv, -⟩ := ht
    simp [onRow, hv, DividesByZero]
  | literal v => simp [onRow, DividesByZero]
  | binary op left right ihl ihr =>
    obtain ⟨u, hl, hr, ha, -⟩ := type?_binary_eq_some_iff.1 ht
    -- By their types the operands' values are accepted, which leaves the divisor.
    rw [DividesByZero, not_or, not_or, ← ihl hl, ← ihr hr, onRow]
    simp only [bind_eq_ok_iff]
    constructor
    · rintro ⟨v, l, hlv, r, hrv, hv⟩
      obtain rfl := type_of_onRow hr hrow hrv
      have hlt := type_of_onRow hl hrow hlv
      refine ⟨⟨l, hlv⟩, ⟨r, hrv⟩, fun hzero => ?_⟩
      rw [zero_divisor_iff hl hr ha hrv] at hzero
      have herror := (Value.apply_eq_error_iff hlt (hlt ▸ ha)).2 ⟨hzero, rfl⟩
      rw [hv] at herror
      cases herror
    · rintro ⟨⟨l, hlv⟩, ⟨r, hrv⟩, hsafe⟩
      obtain rfl := type_of_onRow hr hrow hrv
      have hlt := type_of_onRow hl hrow hlv
      rw [zero_divisor_iff hl hr ha hrv] at hsafe
      obtain ⟨v, hv, -⟩ := Value.exists_apply hlt (hlt ▸ ha) hsafe
      exact ⟨v, l, hlv, r, hrv, hv⟩

/-! ## Values on a batch -/

variable {b : Batch} {c : Column}

theorem exists_evaluate_iff :
    (∃ c, e.evaluate b = .ok c) ↔
      (∃ t, HasType (b.columns.map Column.type) e t) ∧
        ∀ i row, b.row i = .ok row → ¬ e.DividesByZero (b.columns.map Column.type) row := by
  have hrows : (∀ i row, b.row i = .ok row → ¬ e.DividesByZero b.schema.types row) ↔
      ∀ row ∈ b.rows, ¬ e.DividesByZero b.schema.types row := by
    simp only [Batch.row_eq_ok_iff, List.mem_iff_getElem?]
    exact ⟨fun h row ⟨i, hi⟩ => h i row hi, fun h i row hi => h row ⟨i, hi⟩⟩
  rw [b.typed, hrows]
  constructor
  · rintro ⟨c, hc⟩
    obtain ⟨ht, -, hv⟩ := evaluate_eq_ok hc
    have htype := hasType_iff.2 ht
    refine ⟨⟨_, htype⟩, fun row hrow => ?_⟩
    rw [← exists_onRow_iff (Batch.types_of_mem_rows hrow) htype]
    exact exists_mapM_eq_ok_iff.1 ⟨_, hv⟩ row hrow
  · rintro ⟨⟨t, ht⟩, hsafe⟩
    have hall : ∀ row ∈ b.rows, ∃ v, e.onRow row = .ok v := fun row hrow =>
      (exists_onRow_iff (Batch.types_of_mem_rows hrow) ht).2 (hsafe row hrow)
    obtain ⟨vs, hvs⟩ := exists_mapM_eq_ok_iff.2 hall
    obtain ⟨c, hc, -⟩ := exists_evaluate (hasType_iff.1 ht) hvs
    exact ⟨c, hc⟩

theorem valueAt_of_evaluate (h : e.evaluate b = .ok c) {i : Nat} (hi : i < b.rowCount) :
    ∃ row v, b.row i = .ok row ∧ e.onRow row = .ok v ∧ e.Denotes row v ∧ c.valueAt i = .ok v := by
  obtain ⟨row, hrow⟩ : ∃ row, b.rows[i]? = some row :=
    ⟨_, List.getElem?_eq_getElem (by rw [Batch.length_rows]; exact hi)⟩
  obtain ⟨-, -, hv⟩ := evaluate_eq_ok h
  obtain ⟨v, hvalue, hrowv⟩ := exists_getElem?_of_forall₂ (mapM_eq_ok_iff.1 hv) hrow
  exact ⟨row, v, Batch.row_eq_ok_iff.2 hrow, hrowv, onRow_eq_ok_iff_denotes.1 hrowv, Column.valueAt_eq_ok_iff.2 hvalue⟩

/-- On the rows that a mask keeps the values are the ones that it keeps. -/
theorem evaluate_retain (h : e.evaluate b = .ok c) {mask : List Bool} (hmask : mask.length = b.rowCount) :
    ∃ d kept, e.evaluate (b.retain mask) = .ok d ∧ c.filterMask mask = .ok kept ∧ d.Equiv kept := by
  obtain ⟨ht, hn, hv⟩ := evaluate_eq_ok h
  have hkept := mapM_retain hv mask
  rw [← Batch.rows_retain] at hkept
  obtain ⟨d, hd, hdt, hdv⟩ := exists_evaluate (b := b.retain mask) ht hkept
  refine ⟨d, c.retain mask, hd, by rw [Column.filterMask, if_pos (hn.trans hmask.symm)], ?_⟩
  rw [Column.equiv_iff, hdt, hdv, Column.type_retain, Column.toList_retain]
  exact ⟨rfl, rfl⟩

/-- An expression has values on a batch exactly if its columns are there, it has a type, and on no row an integer is
divided by zero; the first two are asked even where there are no rows. The values are those of the rows one by one, so
that they can be computed before or after a selection. A connective has none where one of its operands has none, whatever
the other one is. -/
theorem evaluate_outcome (e : Expr) (b : Batch) :
    ((∃ c, e.evaluate b = .ok c) ↔
      e.ColumnsBelow b.columns.length ∧ (∃ t, HasType (b.columns.map Column.type) e t) ∧
        ∀ i row, b.row i = .ok row → ¬ e.DividesByZero (b.columns.map Column.type) row) ∧
    (∀ c, e.evaluate b = .ok c →
      c.length = b.rowCount ∧
      (∀ i < b.rowCount, ∃ row v, b.row i = .ok row ∧ e.onRow row = .ok v ∧ e.Denotes row v ∧ c.valueAt i = .ok v) ∧
      ∀ mask : List Bool, mask.length = b.rowCount →
        ∃ d kept, e.evaluate (b.retain mask) = .ok d ∧ c.filterMask mask = .ok kept ∧ d.Equiv kept) ∧
    (b.rowCount = 0 → ((∃ c, e.evaluate b = .ok c) ↔
      e.ColumnsBelow b.columns.length ∧ ∃ t, HasType (b.columns.map Column.type) e t)) ∧
    ∀ k left right err, e = binary (.connective k) left right →
      left.evaluate b = .error err ∨ (∃ l, left.evaluate b = .ok l) ∧ right.evaluate b = .error err →
        e.evaluate b = .error err := by
  have hcolumns : (∃ t, HasType (b.columns.map Column.type) e t) → e.ColumnsBelow b.columns.length := by
    rintro ⟨t, ht⟩
    simpa using columnsBelow_of_hasType ht
  refine ⟨?_, fun c hc => ⟨(evaluate_eq_ok hc).2.1, fun i hi => valueAt_of_evaluate hc hi, ?_⟩, fun hempty => ?_, ?_⟩
  · rw [exists_evaluate_iff, and_iff_right_of_imp fun h => hcolumns h.1]
  · exact fun mask hmask => evaluate_retain hc hmask
  · rw [exists_evaluate_iff, and_iff_right_of_imp hcolumns]
    refine and_iff_left fun i row hrow => ?_
    have hi := (List.getElem?_eq_some_iff.1 (Batch.row_eq_ok_iff.1 hrow)).1
    rw [Batch.length_rows] at hi
    omega
  · rintro k left right err rfl (hl | ⟨⟨l, hl⟩, hr⟩)
    · rw [evaluate, hl, error_bind]
    · rw [evaluate, hl, ok_bind, hr, error_bind]

/-- A quotient by what is zero on the first of two rows: the second row has a value, and so has no row at all; that the
other operand of a disjunction is true does not help. -/
theorem evaluate_outcome_quotient :
    let b : Batch := ⟨⟨[⟨"quantity", .int .w8, false⟩]⟩, [.array (.int .w8) #[.int .w8 6, .int .w8 7] (by decide)], 2,
      by decide, by decide⟩
    let quotient : Expr := .binary (.arithmetic .div) (.column 0)
      (.binary (.arithmetic .sub) (.column 0) (.literal (.int .w8 6)))
    (∃ c d kept, quotient.evaluate (b.retain [false, true]) = .ok c ∧ c.toList = [.int .w8 7] ∧
      quotient.evaluate ((b.retain [false, true]).retain [true]) = .ok d ∧ c.filterMask [true] = .ok kept ∧
        d.Equiv kept) ∧
    (∃ c, quotient.evaluate (b.retain [false, false]) = .ok c) ∧
    (Expr.binary (.connective .or) (.literal (.boolean true))
      (.binary (.comparison .gt) quotient (.literal (.int .w8 0)))).evaluate b = .error .divisionByZero := by
  intro b quotient
  have htype : HasType (b.columns.map Column.type) quotient (.int .w8) := hasType_iff.2 rfl
  obtain ⟨-, hsecond, -, -⟩ := evaluate_outcome quotient (b.retain [false, true])
  obtain ⟨-, -, hmask⟩ := hsecond _ rfl
  obtain ⟨d, kept, hd, hkept, hequiv⟩ := hmask [true] rfl
  obtain ⟨-, -, hempty, -⟩ := evaluate_outcome quotient (b.retain [false, false])
  obtain ⟨-, -, -, hconnective⟩ := evaluate_outcome (.binary (.connective .or) (.literal (.boolean true))
    (.binary (.comparison .gt) quotient (.literal (.int .w8 0)))) b
  exact ⟨⟨_, d, kept, rfl, rfl, hd, hkept, hequiv⟩, (hempty rfl).2 ⟨columnsBelow_of_hasType htype, _, htype⟩,
    hconnective _ _ _ _ rfl (.inr ⟨⟨_, rfl⟩, rfl⟩)⟩

end ColumnarQuery.Physical.Expr
