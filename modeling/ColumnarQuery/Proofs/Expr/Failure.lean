import ColumnarQuery.Proofs.Aggregate.Accumulation
import ColumnarQuery.Proofs.Expr.Evaluation

/-!
# Why expressions fail

`Physical.Expr.Fails` is the place in an expression at which its evaluation on a batch ends, with the `Cause`. An expression
whose columns are found fails with such causes only (`Physical.Expr.evaluate_eq_error_iff`).
-/

namespace ColumnarQuery

/-- Why a plan whose columns are found fails. -/
inductive Cause where
  /-- An operator met operands of two types. -/
  | operands (left right : DataType)
  /-- An operator met operands of a type that it does not accept. -/
  | operator (op : BinaryOp) (operand : DataType)
  | zeroDivisor
  | predicate (type : DataType)
  | aggregateInput (fn : AggregateFunction) (input : DataType)
deriving DecidableEq

def Cause.error : Cause → Error
  | operands left right => .typeMismatch left right
  | operator op operand => .unsupported (.operand op operand)
  | zeroDivisor => .divisionByZero
  | predicate type => .typeMismatch .boolean type
  | aggregateInput fn input => .unsupported (.aggregateInput fn input)

/-- The types that a cause names break the rule that it is about. -/
def Cause.Justified : Cause → Prop
  | operands left right => left ≠ right
  | operator op operand => op.accepts operand = false
  | zeroDivisor => True
  | predicate type => type ≠ .boolean
  | aggregateInput fn input => fn.accepts input = false

namespace Physical.Expr

/-- The first place at which an expression cannot be evaluated on a batch: a binary operator whose operands have values,
but of two types, of a type that it does not accept, or with an integer zero to divide by. -/
inductive Fails (b : Batch) : Expr → Cause → Prop
  | left {op : BinaryOp} {left right : Expr} {c : Cause} : left.Fails b c → (binary op left right).Fails b c
  | right {op : BinaryOp} {left right : Expr} {l : Column} {c : Cause} :
    left.evaluate b = .ok l → right.Fails b c → (binary op left right).Fails b c
  | operands {op : BinaryOp} {left right : Expr} {l r : Column} :
    left.evaluate b = .ok l → right.evaluate b = .ok r → l.type ≠ r.type →
      (binary op left right).Fails b (.operands l.type r.type)
  | operator {op : BinaryOp} {left right : Expr} {l r : Column} :
    left.evaluate b = .ok l → right.evaluate b = .ok r → l.type = r.type → op.accepts l.type = false →
      (binary op left right).Fails b (.operator op l.type)
  | zeroDivisor {op : BinaryOp} {left right : Expr} {l r : Column} {v : Value} :
    left.evaluate b = .ok l → right.evaluate b = .ok r → l.type = r.type → op.accepts l.type = true →
      op.divides = true → v ∈ r.toList → v.isIntegerZero = true → (binary op left right).Fails b .zeroDivisor

variable {b : Batch} {e : Expr} {t : DataType} {err : Error}

theorem justified_of_fails {c : Cause} (h : e.Fails b c) : c.Justified := by
  induction h with
  | left _ ih => exact ih
  | right _ _ ih => exact ih
  | operands _ _ ht => exact ht
  | operator _ _ _ ha => exact ha
  | zeroDivisor => trivial

theorem evaluate_of_fails {c : Cause} (h : e.Fails b c) : e.evaluate b = .error c.error := by
  induction h with
  | left _ ih => rw [evaluate, ih, error_bind]
  | right hl _ ih => rw [evaluate, hl, ok_bind, ih, error_bind]
  | operands hl hr ht =>
    have hn := (evaluate_eq_ok hl).2.1.trans (evaluate_eq_ok hr).2.1.symm
    rw [evaluate, hl, ok_bind, hr, ok_bind, Column.apply_eq_error_iff hn]
    exact .inl ⟨ht, rfl⟩
  | operator hl hr ht ha =>
    have hn := (evaluate_eq_ok hl).2.1.trans (evaluate_eq_ok hr).2.1.symm
    rw [evaluate, hl, ok_bind, hr, ok_bind, Column.apply_eq_error_iff hn]
    exact .inr (.inl ⟨⟨ht, ha⟩, rfl⟩)
  | zeroDivisor hl hr ht ha hd hv hz =>
    have hn := (evaluate_eq_ok hl).2.1.trans (evaluate_eq_ok hr).2.1.symm
    rw [evaluate, hl, ok_bind, hr, ok_bind, Column.apply_eq_error_iff hn]
    exact .inr (.inr ⟨⟨ht, ha, hd, _, hv, hz⟩, rfl⟩)

theorem exists_fails (h : e.fieldType? b.schema.types = some t) (he : e.evaluate b = .error err) :
    ∃ c, e.Fails b c ∧ c.error = err := by
  induction e generalizing t with
  | column i =>
    obtain ⟨c, hc, -⟩ := Batch.exists_column h
    rw [evaluate, hc] at he
    cases he
  | literal v => cases he
  | binary op left right ihl ihr =>
    rw [fieldType?, Option.bind_eq_bind, Option.bind_eq_some_iff] at h
    obtain ⟨u, hu, h⟩ := h
    obtain ⟨w, hw, -⟩ := Option.bind_eq_some_iff.1 h
    rw [evaluate, bind_eq_error_iff] at he
    rcases he with hl | ⟨l, hl, he⟩
    · obtain ⟨c, hc, herr⟩ := ihl hu hl
      exact ⟨c, .left hc, herr⟩
    rw [bind_eq_error_iff] at he
    rcases he with hr | ⟨r, hr, he⟩
    · obtain ⟨c, hc, herr⟩ := ihr hw hr
      exact ⟨c, .right hl hc, herr⟩
    have hn := (evaluate_eq_ok hl).2.1.trans (evaluate_eq_ok hr).2.1.symm
    rw [Column.apply_eq_error_iff hn] at he
    rcases he with ⟨ht, rfl⟩ | ⟨⟨ht, ha⟩, rfl⟩ | ⟨⟨ht, ha, hd, v, hv, hz⟩, rfl⟩
    · exact ⟨_, .operands hl hr ht, rfl⟩
    · exact ⟨_, .operator hl hr ht ha, rfl⟩
    · exact ⟨_, .zeroDivisor hl hr ht ha hd hv hz, rfl⟩

theorem evaluate_eq_error_iff (h : e.fieldType? b.schema.types = some t) :
    e.evaluate b = .error err ↔ ∃ c, e.Fails b c ∧ c.error = err := by
  constructor
  · exact exists_fails h
  · intro hc
    obtain ⟨c, hc, rfl⟩ := hc
    exact evaluate_of_fails hc

theorem mapM_evaluate_eq_error_iff {es : List Expr} (h : ∀ e ∈ es, ∃ t, e.fieldType? b.schema.types = some t) :
    es.mapM (·.evaluate b) = .error err ↔ ∃ e c, Reaches (Expr.evaluate b) es e ∧ e.Fails b c ∧ c.error = err := by
  rw [mapM_eq_error_iff]
  constructor
  · intro hall
    obtain ⟨e, hreach, he⟩ := hall
    obtain ⟨t, ht⟩ := h e hreach.mem
    obtain ⟨c, hc, herr⟩ := (evaluate_eq_error_iff ht).1 he
    exact ⟨e, c, hreach, hc, herr⟩
  · intro hall
    obtain ⟨e, c, hreach, hc, rfl⟩ := hall
    exact ⟨e, hreach, evaluate_of_fails hc⟩

end Physical.Expr

end ColumnarQuery
