import ColumnarQuery.Physical.Expr
import ColumnarQuery.Proofs.Batch.Rows
import ColumnarQuery.Proofs.Column.Operation
import ColumnarQuery.Proofs.Value.Outcome

/-!
# Expressions row by row

`Physical.Expr.onRow` is the value of an expression on one row, which is what the expression means by the outcomes of its
operators (`Physical.Expr.onRow_eq_ok_iff_denotes`). An expression has values on a batch exactly if it has a type
(`Physical.Expr.type?`) and a value on each row, and these are its values.
-/

namespace ColumnarQuery

theorem Batch.column_eq_ok {b : Batch} {i : Nat} {c : Column} (h : b.column i = .ok c) :
    b.schema.types[i]? = some c.type ∧ c.length = b.rowCount := by
  unfold Batch.column at h
  split at h
  · rename_i hi
    cases h
    refine ⟨?_, b.sized _ (List.mem_of_getElem? hi)⟩
    rw [← b.typed, List.getElem?_map, hi, Option.map_some]
  · cases h

theorem Batch.exists_column {b : Batch} {i : Nat} {t : DataType} (h : b.schema.types[i]? = some t) :
    ∃ c, b.column i = .ok c ∧ c.type = t := by
  rw [← b.typed, List.getElem?_map, Option.map_eq_some_iff] at h
  obtain ⟨c, hc, ht⟩ := h
  exact ⟨c, by rw [column, hc], ht⟩

namespace Physical.Expr

/-- The value of an expression on one row. -/
def onRow (row : Row) : Expr → Except Error Value
  | column i =>
    match row[i]? with
    | some v => .ok v
    | none => .error (.indexOutOfBounds i row.length)
  | literal v => .ok v
  | binary op left right => do
    Value.apply op (← left.onRow row) (← right.onRow row)

/-- An expression means a value on a row: operators have their outcomes on what their operands mean. -/
inductive Denotes (row : Row) : Expr → Value → Prop
  | column {i : Nat} {v : Value} (h : row[i]? = some v) : Denotes row (column i) v
  | literal (v : Value) : Denotes row (literal v) v
  | binary {op : BinaryOp} {left right : Expr} {a b v : Value} (hl : Denotes row left a) (hr : Denotes row right b)
    (h : Value.Outcome op a b (.ok v)) : Denotes row (binary op left right) v

theorem onRow_eq_ok_iff_denotes {row : Row} {e : Expr} {v : Value} : e.onRow row = .ok v ↔ e.Denotes row v := by
  induction e generalizing v with
  | column i =>
    rw [onRow]
    constructor
    · intro h
      split at h
      · rename_i w hw
        cases h
        exact .column hw
      · cases h
    · rintro (⟨h⟩ | - | -)
      rw [h]
  | literal w =>
    constructor
    · rintro ⟨⟩
      exact .literal w
    · rintro (- | - | -)
      rfl
  | binary op left right ihl ihr =>
    simp only [onRow, bind_eq_ok_iff]
    constructor
    · rintro ⟨a, ha, b, hb, h⟩
      exact .binary (ihl.1 ha) (ihr.1 hb) (Value.apply_eq_ok_iff.1 h)
    · rintro (- | - | ⟨ha, hb, h⟩)
      exact ⟨_, ihl.2 ha, _, ihr.2 hb, Value.apply_eq_ok_iff.2 h⟩

/-- The type of an expression over columns of the given types. There is one if both operands of each operator have the
same type, which the operator accepts. -/
def type? (types : List DataType) : Expr → Option DataType
  | column i => types[i]?
  | literal v => some v.type
  | binary op left right => do
    let t ← left.type? types
    let u ← right.type? types
    if t = u ∧ op.accepts t = true then some (op.resultType t) else none

theorem type?_binary_eq_some_iff {types : List DataType} {op : BinaryOp} {left right : Expr} {t : DataType} :
    (binary op left right).type? types = some t ↔
      ∃ u, left.type? types = some u ∧ right.type? types = some u ∧ op.accepts u = true ∧ op.resultType u = t := by
  rw [type?, Option.bind_eq_bind, Option.bind_eq_some_iff]
  constructor
  · rintro ⟨u, hu, h⟩
    obtain ⟨v, hv, h⟩ := Option.bind_eq_some_iff.1 h
    split at h
    · rename_i huv
      obtain ⟨rfl, ha⟩ := huv
      exact ⟨u, hu, hv, ha, Option.some.inj h⟩
    · cases h
  · rintro ⟨u, hl, hr, ha, rfl⟩
    exact ⟨u, hl, by rw [hr, Option.bind_some, if_pos ⟨rfl, ha⟩]⟩

theorem type_of_onRow {types : List DataType} {e : Expr} {t : DataType} {row : Row} {v : Value}
    (ht : e.type? types = some t) (hrow : row.map Value.type = types) (h : e.onRow row = .ok v) : v.type = t := by
  induction e generalizing t v with
  | column i =>
    rw [onRow] at h
    rw [type?, ← hrow, List.getElem?_map] at ht
    split at h
    · rename_i w hw
      cases h
      rw [hw, Option.map_some] at ht
      exact Option.some.inj ht
    · cases h
  | literal w =>
    cases h
    exact Option.some.inj ht
  | binary op left right ihl ihr =>
    obtain ⟨u, hl, hr, ha, rfl⟩ := type?_binary_eq_some_iff.1 ht
    rw [onRow] at h
    obtain ⟨a, hav, h⟩ := bind_eq_ok_iff.1 h
    obtain ⟨b, hbv, h⟩ := bind_eq_ok_iff.1 h
    have hta := ihl hl hav
    rw [Value.type_of_apply_eq_ok (hta.trans (ihr hr hbv).symm) (by rw [hta, ha]) h, hta]

/-- The type of the field that an expression computes. It is told by the left operands; the right ones are not compared
to them. -/
def fieldType? (types : List DataType) : Expr → Option DataType
  | column i => types[i]?
  | literal v => some v.type
  | binary op left right => do
    let t ← left.fieldType? types
    let _ ← right.fieldType? types
    return op.resultType t

/-- Values can only be computed of the type of the field. -/
theorem fieldType?_of_type? {types : List DataType} {e : Expr} {t : DataType} (h : e.type? types = some t) :
    e.fieldType? types = some t := by
  induction e generalizing t with
  | column i => exact h
  | literal v => exact h
  | binary op left right ihl ihr =>
    obtain ⟨u, hl, hr, -, rfl⟩ := type?_binary_eq_some_iff.1 h
    rw [fieldType?, ihl hl, ihr hr]
    rfl

theorem mapM_onRow_binary {rows : List Row} {op : BinaryOp} {left right : Expr} {vs : List Value} :
    rows.mapM (fun row => (binary op left right).onRow row) = .ok vs ↔
      ∃ ls rs, rows.mapM (fun row => left.onRow row) = .ok ls ∧ rows.mapM (fun row => right.onRow row) = .ok rs ∧
        (ls.zip rs).mapM (fun p => p.1.apply op p.2) = .ok vs :=
  mapM_bind₂_eq_ok_iff

variable {b : Batch}

/-- What evaluation on a batch returns: a value per row, each of which depends on its row alone. -/
theorem evaluate_eq_ok {e : Expr} {c : Column} (h : e.evaluate b = .ok c) :
    e.type? b.schema.types = some c.type ∧ c.length = b.rowCount ∧
      b.rows.mapM (fun row => e.onRow row) = .ok c.toList := by
  induction e generalizing c with
  | column i =>
    rw [evaluate] at h
    obtain ⟨ht, hn⟩ := Batch.column_eq_ok h
    refine ⟨ht, hn, mapM_eq_ok_iff.2 ((Batch.forall₂_of_column_eq_ok h).imp fun row v hv => ?_)⟩
    rw [onRow, hv]
  | literal v =>
    cases h
    refine ⟨rfl, rfl, ?_⟩
    have hmap : b.rows.mapM (fun row => (literal v).onRow row) = .ok (List.replicate b.rows.length v) :=
      mapM_const b.rows v
    rw [hmap, Batch.length_rows, Column.toList]
  | binary op left right ihl ihr =>
    rw [evaluate, bind_eq_ok_iff] at h
    obtain ⟨l, hl, h⟩ := h
    obtain ⟨r, hr, h⟩ := bind_eq_ok_iff.1 h
    obtain ⟨htl, hnl, hvl⟩ := ihl hl
    obtain ⟨htr, -, hvr⟩ := ihr hr
    obtain ⟨-, ht, ha, hct, hv⟩ := Column.apply_eq_ok h
    refine ⟨type?_binary_eq_some_iff.2 ⟨l.type, htl, ht ▸ htr, ha, hct.symm⟩, ?_, ?_⟩
    · rw [Column.length_of_apply_eq_ok h, hnl]
    · exact mapM_onRow_binary.2 ⟨l.toList, r.toList, hvl, hvr, hv⟩

theorem exists_evaluate {e : Expr} {t : DataType} {vs : List Value} (ht : e.type? b.schema.types = some t)
    (hv : b.rows.mapM (fun row => e.onRow row) = .ok vs) :
    ∃ c, e.evaluate b = .ok c ∧ c.type = t ∧ c.toList = vs := by
  induction e generalizing t vs with
  | column i =>
    obtain ⟨c, hc, hct⟩ := Batch.exists_column ht
    have hcv := (evaluate_eq_ok (e := column i) hc).2.2
    rw [hv, Except.ok.injEq] at hcv
    exact ⟨c, hc, hct, hcv.symm⟩
  | literal v =>
    have hcv := (evaluate_eq_ok (b := b) (e := literal v) rfl).2.2
    rw [hv, Except.ok.injEq] at hcv
    exact ⟨_, rfl, Option.some.inj ht, hcv.symm⟩
  | binary op left right ihl ihr =>
    obtain ⟨u, htl, htr, ha, rfl⟩ := type?_binary_eq_some_iff.1 ht
    obtain ⟨ls, rs, hls, hrs, hvs⟩ := mapM_onRow_binary.1 hv
    obtain ⟨l, hl, rfl, rfl⟩ := ihl htl hls
    obtain ⟨r, hr, htr, rfl⟩ := ihr htr hrs
    have hn : l.length = r.length := by rw [(evaluate_eq_ok hl).2.1, (evaluate_eq_ok hr).2.1]
    obtain ⟨c, hc, hct, hcv⟩ := Column.exists_apply hn htr.symm ha hvs
    exact ⟨c, by rw [evaluate, hl, ok_bind, hr, ok_bind, hc], hct, hcv⟩

/-! ## Several expressions -/

theorem mapM_evaluate_eq_ok {es : List Expr} {cs : List Column} (h : es.mapM (·.evaluate b) = .ok cs) :
    es.map (·.type? b.schema.types) = cs.map (some ·.type) ∧ (∀ c ∈ cs, c.length = b.rowCount) ∧
      b.rows.mapM (fun row => es.mapM (·.onRow row)) = .ok (rowsOf b.rowCount (cs.map Column.toList)) := by
  have hall := (mapM_eq_ok_iff.1 h).imp fun e c hc => evaluate_eq_ok hc
  refine ⟨?_, ?_, ?_⟩
  · rw [← List.forall₂_eq_eq_eq, List.forall₂_map_left_iff, List.forall₂_map_right_iff]
    exact hall.imp fun e c hc => hc.1
  · intro c hc
    obtain ⟨e, -, he⟩ := exists_of_mem_mapM h hc
    exact (evaluate_eq_ok he).2.1
  · rw [mapM_mapM_eq_ok_iff, Batch.length_rows]
    refine ⟨cs.map Column.toList, ?_, rfl⟩
    rw [List.forall₂_map_right_iff]
    exact hall.imp fun e c hc => hc.2.2

theorem exists_mapM_evaluate {es : List Expr} {rows : List Row} (ht : ∀ e ∈ es, ∃ t, e.type? b.schema.types = some t)
    (h : b.rows.mapM (fun row => es.mapM (·.onRow row)) = .ok rows) : ∃ cs, es.mapM (·.evaluate b) = .ok cs := by
  refine exists_mapM_eq_ok_iff.2 fun e he => ?_
  obtain ⟨columns, hcolumns, -⟩ := mapM_mapM_eq_ok_iff.1 h
  obtain ⟨t, ht⟩ := ht e he
  obtain ⟨values, -, hvalues⟩ := exists_mem_of_forall₂ hcolumns he
  obtain ⟨c, hc, -⟩ := exists_evaluate ht hvalues
  exact ⟨c, hc⟩

end Physical.Expr

end ColumnarQuery
