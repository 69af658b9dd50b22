import ColumnarQuery.Proofs.Batch.Rows
import ColumnarQuery.Proofs.Column.Operation
import ColumnarQuery.Proofs.Value.Outcome

/-!
# When a binary operator answers

`Column.Refuses` : why an operator refuses two columns, in the order in which it looks. Otherwise it answers with the outcome
of the operator at each index (`Column.apply_outcome`).
-/

namespace ColumnarQuery

theorem BinaryOp.accepts_eq_false_iff {op : BinaryOp} {t : DataType} :
    op.accepts t = false ↔
      (∃ k, op = .connective k) ∧ t ≠ .boolean ∨ (∃ f, op = .arithmetic f) ∧ t.isNumeric = false := by
  cases op <;> simp [accepts]

theorem Value.isIntegerZero_iff {v : Value} : v.isIntegerZero = true ↔ ∃ w, v = .int w 0 := by
  cases v with
  | int w n =>
    simp only [isIntegerZero, decide_eq_true_eq]
    constructor
    · rintro rfl
      exact ⟨w, rfl⟩
    · rintro ⟨_, h⟩
      cases h
      rfl
  | _ => simp [isIntegerZero]

namespace Column

/-- Why an operator refuses two columns. It looks at their lengths first, then at their types, then at what it is defined
for, and at the values of the divisor last. -/
inductive Refuses (l r : Column) : BinaryOp → Error → Prop
  | length {op : BinaryOp} (h : l.length ≠ r.length) : Refuses l r op (.lengthMismatch l.length r.length)
  | type {op : BinaryOp} (hl : l.length = r.length) (h : l.type ≠ r.type) :
    Refuses l r op (.typeMismatch l.type r.type)
  | connective (k : Connective) (hl : l.length = r.length) (ht : l.type = r.type) (h : l.type ≠ .boolean) :
    Refuses l r (.connective k) (.unsupported (.operand (.connective k) l.type))
  | arithmetic (f : Arithmetic) (hl : l.length = r.length) (ht : l.type = r.type) (h : l.type.isNumeric = false) :
    Refuses l r (.arithmetic f) (.unsupported (.operand (.arithmetic f) l.type))
  | zeroDivisor {f : Arithmetic} (hf : f = .div ∨ f = .rem) (hl : l.length = r.length) (ht : l.type = r.type)
    {w : IntWidth} (hw : l.type = .int w) {i : Nat} (hi : r.valueAt i = .ok (.int w 0)) :
    Refuses l r (.arithmetic f) .divisionByZero

variable {op : BinaryOp} {l r : Column}

theorem type_of_valueAt {c : Column} {i : Nat} {v : Value} (h : c.valueAt i = .ok v) : v.type = c.type :=
  type_of_mem_toList (List.mem_of_getElem? (valueAt_eq_ok_iff.1 h))

theorem exists_valueAt {c : Column} {i : Nat} (h : i < c.length) : ∃ v, c.valueAt i = .ok v ∧ v.type = c.type := by
  have hi : i < c.toList.length := by simpa using h
  exact ⟨_, valueAt_of_lt hi, type_of_mem_toList (List.getElem_mem hi)⟩

/-- A zero among integers is found at an index, and its width is that of the column. -/
theorem exists_isIntegerZero_iff {c : Column} :
    (∃ v ∈ c.toList, v.isIntegerZero = true) ↔ ∃ w i, c.type = .int w ∧ c.valueAt i = .ok (.int w 0) := by
  constructor
  · rintro ⟨v, hv, hz⟩
    obtain ⟨w, rfl⟩ := Value.isIntegerZero_iff.1 hz
    obtain ⟨i, hi⟩ := List.mem_iff_getElem?.1 hv
    exact ⟨w, i, (type_of_mem_toList hv).symm, valueAt_eq_ok_iff.2 hi⟩
  · rintro ⟨w, i, -, hi⟩
    exact ⟨_, List.mem_of_getElem? (valueAt_eq_ok_iff.1 hi), Value.isIntegerZero_iff.2 ⟨w, rfl⟩⟩

theorem apply_eq_error_iff_refuses {e : Error} : l.apply op r = .error e ↔ Refuses l r op e := by
  by_cases hl : l.length = r.length
  · rw [apply_eq_error_iff hl, BinaryOp.accepts_eq_false_iff]
    constructor
    · rintro (⟨ht, rfl⟩ | ⟨⟨ht, ha⟩, rfl⟩ | ⟨⟨ht, -, hd, hz⟩, rfl⟩)
      · exact .type hl ht
      · rcases ha with ⟨⟨k, rfl⟩, hb⟩ | ⟨⟨f, rfl⟩, hn⟩
        · exact .connective k hl ht hb
        · exact .arithmetic f hl ht hn
      · obtain ⟨w, i, hw, hi⟩ := exists_isIntegerZero_iff.1 hz
        rcases BinaryOp.divides_iff.1 hd with rfl | rfl
        · exact .zeroDivisor (.inl rfl) hl ht (ht ▸ hw) hi
        · exact .zeroDivisor (.inr rfl) hl ht (ht ▸ hw) hi
    · rintro (h | ⟨-, ht⟩ | ⟨k, -, ht, hb⟩ | ⟨f, -, ht, hn⟩ | ⟨hf, -, ht, hw, hi⟩)
      · exact absurd hl h
      · exact .inl ⟨ht, rfl⟩
      · exact .inr (.inl ⟨⟨ht, .inl ⟨⟨k, rfl⟩, hb⟩⟩, rfl⟩)
      · exact .inr (.inl ⟨⟨ht, .inr ⟨⟨f, rfl⟩, hn⟩⟩, rfl⟩)
      · have hz := exists_isIntegerZero_iff.2 ⟨_, _, ht ▸ hw, hi⟩
        exact .inr (.inr ⟨⟨ht, by rw [hw]; rfl, Arithmetic.divides_iff.2 hf, hz⟩, rfl⟩)
  · rw [apply, if_pos hl, Except.error.injEq]
    constructor
    · rintro rfl
      exact .length hl
    · rintro (- | ⟨h, -⟩ | ⟨-, h, -⟩ | ⟨-, h, -⟩ | ⟨-, h, -⟩)
      · rfl
      all_goals exact absurd h hl

/-- Behind the guards each index has a value on both sides, of one type that the operator accepts. -/
theorem accepts_of_lt (hl : l.length = r.length) (ht : l.type = r.type) (ha : op.accepts l.type = true) {i : Nat}
    (hi : i < l.length) :
    ∃ a b, l.valueAt i = .ok a ∧ r.valueAt i = .ok b ∧ a.type = b.type ∧ op.accepts a.type = true := by
  obtain ⟨a, hla, hat⟩ := exists_valueAt hi
  obtain ⟨b, hrb, hbt⟩ := exists_valueAt (c := r) (hl ▸ hi)
  exact ⟨a, b, hla, hrb, by rw [hat, hbt, ht], by rw [hat, ha]⟩

/-- Nothing that an operator asks of two values fails, but for an integer that it divides by zero: their order can be
told, booleans have their contents, and numbers are combined. -/
structure Answers (op : BinaryOp) (a b : Value) : Prop where
  compare : ∃ o, a.compare b = .ok o
  connective : ∀ k, op = .connective k → ∃ p q, a.boolean? = some p ∧ b.boolean? = some q
  arithmetic : ∀ f, op = .arithmetic f → (∃ v, a.calculate op b = .ok v) ∨ a.calculate op b = .error .divisionByZero

theorem answers_of_accepts {a b : Value} (ht : a.type = b.type) (ha : op.accepts a.type = true) : Answers op a b where
  compare := Value.exists_compare ht
  connective k hk := by
    subst hk
    have hb : a.type = .boolean := of_decide_eq_true ha
    cases a <;> cases hb
    cases b <;> cases ht
    exact ⟨_, _, rfl, rfl⟩
  arithmetic f hf := by
    subst hf
    by_cases hz : (BinaryOp.arithmetic f).divides = true ∧ b.isIntegerZero = true
    · exact .inr ((Value.apply_eq_error_iff ht ha).2 ⟨hz, rfl⟩)
    · obtain ⟨v, hv, -⟩ := Value.exists_apply ht ha hz
      exact .inl ⟨v, hv⟩

theorem valueAt_of_apply {c : Column} (h : l.apply op r = .ok c) {i : Nat} {a b : Value} (ha : l.valueAt i = .ok a)
    (hb : r.valueAt i = .ok b) : c.valueAt i = a.apply op b := by
  obtain ⟨-, -, -, -, hvs⟩ := apply_eq_ok h
  rw [valueAt_eq_ok_iff] at ha hb
  have hzip : (l.toList.zip r.toList)[i]? = some (a, b) := List.getElem?_zip_eq_some.2 ⟨ha, hb⟩
  obtain ⟨v, hv, hab⟩ := exists_getElem?_of_forall₂ (mapM_eq_ok_iff.1 hvs) hzip
  rw [hab]
  exact valueAt_eq_ok_iff.2 hv

/-- An operator fails with the first of its reasons to refuse two columns, and for no other reason. Otherwise it returns
a column that holds at each index the one outcome of the operator on the two values there. The accesses, the questions
asked of two values and the assembly of the answer behind the guards do not fail. -/
theorem apply_outcome (op : BinaryOp) (l r : Column) :
    (∀ e, l.apply op r = .error e ↔ Refuses l r op e) ∧
    ((∀ e, ¬ Refuses l r op e) → ∃ c, l.apply op r = .ok c ∧ c.length = l.length ∧
      c.type = (if op.isArithmetic then l.type else .boolean) ∧
      ∀ i < l.length, ∃ a b v, l.valueAt i = .ok a ∧ r.valueAt i = .ok b ∧ c.valueAt i = .ok v ∧
        ∀ answer, Value.Outcome op a b answer ↔ answer = .ok v) ∧
    (l.length = r.length → l.type = r.type → op.accepts l.type = true →
      (∀ i < l.length, ∃ a b, l.valueAt i = .ok a ∧ r.valueAt i = .ok b ∧ Answers op a b ∧
        Value.Outcome op a b (a.apply op b)) ∧
      ∀ vs, zipWith (Value.apply op) l r = .ok vs → ∃ c, ofValues (op.resultType l.type) vs = .ok c) := by
  refine ⟨fun e => apply_eq_error_iff_refuses, fun hrefuses => ?_, fun hl ht ha => ⟨fun i hi => ?_, fun vs hvs => ?_⟩⟩
  · cases hc : l.apply op r with
    | error e => exact absurd (apply_eq_error_iff_refuses.1 hc) (hrefuses e)
    | ok c =>
      obtain ⟨hl, ht, ha, htype, -⟩ := apply_eq_ok hc
      have hlength := length_of_apply_eq_ok hc
      refine ⟨c, rfl, hlength, htype, fun i hi => ?_⟩
      obtain ⟨a, b, hla, hrb, hab, haccepts⟩ := accepts_of_lt hl ht ha hi
      obtain ⟨v, hv, -⟩ := exists_valueAt (c := c) (hlength ▸ hi)
      have happly := (valueAt_of_apply hc hla hrb).symm.trans hv
      exact ⟨a, b, v, hla, hrb, hv, fun answer => by rw [Value.outcome_iff hab haccepts, happly]⟩
  · obtain ⟨a, b, hla, hrb, hab, haccepts⟩ := accepts_of_lt hl ht ha hi
    exact ⟨a, b, hla, hrb, answers_of_accepts hab haccepts, Value.outcome_apply hab haccepts⟩
  · rw [zipWith_eq_mapM hl] at hvs
    exact exists_ofValues (types_of_mapM_apply ht ha hvs)

/-- A quotient with a zero in the divisor; without it; a sum of texts where there are none; and a conjunction of numbers
with too few texts. -/
theorem apply_outcome_quotients :
    let amounts : Column := .array (.int .w8) #[.int .w8 128, .int .w8 7] (by decide)
    let none : Column := .array .text #[] (by decide)
    amounts.apply (.arithmetic .div) (.array (.int .w8) #[.int .w8 255, .int .w8 0] (by decide)) =
      .error .divisionByZero ∧
    (∃ c, amounts.apply (.arithmetic .div) (.constant (.int .w8 255) 2) = .ok c ∧ c.type = .int .w8 ∧ c.length = 2 ∧
      c.toList = [.int .w8 128, .int .w8 249]) ∧
    none.apply (.arithmetic .add) none = .error (.unsupported (.operand (.arithmetic .add) .text)) ∧
    amounts.apply (.connective .and) none = .error (.lengthMismatch 2 0) := by
  intro amounts none
  refine ⟨?_, ?_, ?_, ?_⟩
  · exact ((apply_outcome _ _ _).1 _).2 (.zeroDivisor (w := .w8) (.inl rfl) rfl rfl rfl (i := 1) rfl)
  · have happly : amounts.apply (.arithmetic .div) (.constant (.int .w8 255) 2) =
        .ok (.array (.int .w8) #[.int .w8 128, .int .w8 249] (by decide)) := rfl
    have haccepted : ∀ e, ¬ Refuses amounts (.constant (.int .w8 255) 2) (.arithmetic .div) e := by
      intro e he
      rw [← (apply_outcome _ _ _).1 e, happly] at he
      cases he
    obtain ⟨c, hc, hlength, htype, -⟩ := (apply_outcome _ _ _).2.1 haccepted
    refine ⟨c, hc, htype, hlength, ?_⟩
    rw [happly, Except.ok.injEq] at hc
    rw [← hc]
    rfl
  · exact ((apply_outcome _ _ _).1 _).2 (.arithmetic .add rfl rfl rfl)
  · exact ((apply_outcome _ _ _).1 _).2 (.length (by decide))

end Column

end ColumnarQuery
