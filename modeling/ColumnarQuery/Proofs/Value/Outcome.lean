import ColumnarQuery.Proofs.Float.Arithmetic
import ColumnarQuery.Proofs.Value.Integer
import ColumnarQuery.Proofs.Value.Order

/-!
# The meaning of the binary operators

`Value.Outcome` is the outcome of each operator on two values, stated without the functions that compute it: comparisons by
how the values stand to each other, numbers in floating point by the rules of IEEE 754. There is at most one, and it is what
they compute (`Value.outcome_apply`, `Value.apply_eq_ok_iff`).
-/

namespace ColumnarQuery

/-! ## Comparisons -/

namespace Value

/-- A value stands before another one of its type. A NaN stands before nothing, and nothing before it. -/
inductive Precedes : Value → Value → Prop
  | before {a b : Value} (h : a.Before b) : Precedes a b
  | floats {w : FloatWidth} {x y : FloatBits w} (hx : x.isNaN = false) (hy : y.isNaN = false) (h : x.place < y.place) :
    Precedes (.float w x) (.float w y)

/-- Two values stand at the same place: one and the same, or numbers in floating point with one value. -/
inductive Level : Value → Value → Prop
  | same {a : Value} (h : a.type.isFloating = false) : Level a a
  | floats {w : FloatWidth} {x y : FloatBits w} (hx : x.isNaN = false) (hy : y.isNaN = false) (h : x.place = y.place) :
    Level (.float w x) (.float w y)

end Value

/-- What a comparison says of two values. -/
def Comparison.Relates : Comparison → Value → Value → Prop
  | eq, a, b => a.Level b
  | ne, a, b => ¬ a.Level b
  | gt, a, b => b.Precedes a
  | ge, a, b => b.Precedes a ∨ a.Level b
  | lt, a, b => a.Precedes b
  | le, a, b => a.Precedes b ∨ a.Level b

namespace Value
variable {a b : Value}

theorem compare_float {w : FloatWidth} (x y : FloatBits w) : (float w x).compare (float w y) = .ok (x.compare y) := by
  rw [compare, dif_pos rfl]

theorem precedes_float_iff {w : FloatWidth} {x y : FloatBits w} :
    (float w x).Precedes (float w y) ↔ (x.isNaN = false ∧ y.isNaN = false) ∧ x.place < y.place := by
  constructor
  · intro h
    cases h with
    | before h => cases h
    | floats hx hy h => exact ⟨⟨hx, hy⟩, h⟩
  · rintro ⟨⟨hx, hy⟩, h⟩
    exact .floats hx hy h

theorem level_float_iff {w : FloatWidth} {x y : FloatBits w} :
    (float w x).Level (float w y) ↔ (x.isNaN = false ∧ y.isNaN = false) ∧ x.place = y.place := by
  constructor
  · intro h
    cases h with
    | same h => cases h
    | floats hx hy h => exact ⟨⟨hx, hy⟩, h⟩
  · rintro ⟨⟨hx, hy⟩, h⟩
    exact .floats hx hy h

theorem precedes_iff_of_not_floating (hf : a.type.isFloating = false) : a.Precedes b ↔ a.Before b := by
  constructor
  · intro h
    cases h with
    | before h => exact h
    | floats => cases hf
  · exact .before

theorem level_iff_of_not_floating (hf : a.type.isFloating = false) : a.Level b ↔ a = b := by
  constructor
  · intro h
    cases h with
    | same => rfl
    | floats => cases hf
  · rintro rfl
    exact .same hf

/-- Two values of one type are compared by how they stand to each other. -/
theorem compare_iff (ht : a.type = b.type) :
    (a.compare b = .ok (some .lt) ↔ a.Precedes b) ∧ (a.compare b = .ok (some .eq) ↔ a.Level b) := by
  by_cases hf : a.type.isFloating = false
  · obtain ⟨o, ho, heq, hlt⟩ := compare_ordered ht hf
    rw [precedes_iff_of_not_floating hf, level_iff_of_not_floating hf, ← heq, ← hlt, ho]
    simp
  · cases a with
    | float w x =>
      cases b <;> cases ht
      rw [compare_float, precedes_float_iff, level_float_iff, Except.ok.injEq, Except.ok.injEq,
        FloatBits.compare_eq_some_iff, FloatBits.compare_eq_some_iff, cmp_eq_lt_iff, cmp_eq_eq_iff]
      exact ⟨Iff.rfl, Iff.rfl⟩
    | _ => exact absurd rfl hf

theorem compare_eq_gt_iff (ht : a.type = b.type) : a.compare b = .ok (some .gt) ↔ b.Precedes a := by
  rw [← (compare_iff ht.symm).1, ← compare_swap ht]
  obtain ⟨o, ho⟩ := exists_compare ht
  rw [ho, map_ok]
  rcases o with _ | _ | _ | _ <;> simp

/-- What a comparison finds in the order of two values is what it says of them. -/
theorem holds_iff_relates (ht : a.type = b.type) {o : Option Ordering} (ho : a.compare b = .ok o) (c : Comparison) :
    c.holds o = true ↔ c.Relates a b := by
  have hlt := (compare_iff ht).1
  have heq := (compare_iff ht).2
  have hgt := compare_eq_gt_iff ht
  rw [ho, Except.ok.injEq] at hlt heq hgt
  cases c <;> simp [Comparison.holds, Comparison.Relates, ← hlt, ← heq, ← hgt]

end Value

/-! ## Arithmetic -/

/-- What an operator makes of two numbers in floating point. -/
def Arithmetic.OnFloats {w : FloatWidth} : Arithmetic → FloatBits w → FloatBits w → FloatBits w → Prop
  | add => FloatBits.Propagates FloatBits.IsSum
  | sub => FloatBits.Propagates FloatBits.IsDifference
  | mul => FloatBits.Propagates FloatBits.IsProduct
  | div => FloatBits.Propagates FloatBits.IsQuotient
  | rem => FloatBits.Propagates FloatBits.IsRemainder

theorem Arithmetic.onFloats_spec {w : FloatWidth} (f : Arithmetic) (x y : FloatBits w) :
    f.OnFloats x y (f.onFloats x y) := by
  cases f with
  | add => exact FloatBits.propagates_add x y
  | sub => exact FloatBits.propagates_sub x y
  | mul => exact FloatBits.propagates_mul x y
  | div => exact FloatBits.propagates_div x y
  | rem => exact FloatBits.propagates_rem x y

theorem Arithmetic.OnFloats.unique {w : FloatWidth} {f : Arithmetic} {x y z z' : FloatBits w} (h : f.OnFloats x y z)
    (h' : f.OnFloats x y z') : z = z' := by
  cases f with
  | add => exact FloatBits.Propagates.unique FloatBits.IsSum.unique h h'
  | sub => exact FloatBits.Propagates.unique FloatBits.IsDifference.unique h h'
  | mul => exact FloatBits.Propagates.unique FloatBits.IsProduct.unique h h'
  | div => exact FloatBits.Propagates.unique FloatBits.IsQuotient.unique h h'
  | rem => exact FloatBits.Propagates.unique FloatBits.IsRemainder.unique h h'

/-! ## Outcomes -/

namespace Value

/-- The outcome of an operator on two values of one type. Integers wrap: the answer is congruent to the exact one modulo
the width. -/
inductive Outcome : BinaryOp → Value → Value → Except Error Value → Prop
  | comparison (c : Comparison) {a b : Value} (ht : a.type = b.type) {p : Bool} (h : p = true ↔ c.Relates a b) :
    Outcome (.comparison c) a b (.ok (.boolean p))
  | and (p q : Bool) : Outcome (.connective .and) (.boolean p) (.boolean q) (.ok (.boolean (p && q)))
  | or (p q : Bool) : Outcome (.connective .or) (.boolean p) (.boolean q) (.ok (.boolean (p || q)))
  | ints (f : Arithmetic) {w : IntWidth} {m n r : BitVec w.bits} (hn : f = .div ∨ f = .rem → n.toInt ≠ 0)
    (h : r.toInt ≡ f.onIntegers m.toInt n.toInt [ZMOD 2 ^ w.bits]) :
    Outcome (.arithmetic f) (.int w m) (.int w n) (.ok (.int w r))
  | floats (f : Arithmetic) {w : FloatWidth} {x y z : FloatBits w} (h : f.OnFloats x y z) :
    Outcome (.arithmetic f) (.float w x) (.float w y) (.ok (.float w z))
  | zeroDivisor {f : Arithmetic} (hf : f = .div ∨ f = .rem) {w : IntWidth} (m : BitVec w.bits) {n : BitVec w.bits}
    (hn : n.toInt = 0) : Outcome (.arithmetic f) (.int w m) (.int w n) (.error .divisionByZero)

variable {op : BinaryOp} {a b : Value} {answer answer' : Except Error Value}

theorem Outcome.unique (h : Outcome op a b answer) (h' : Outcome op a b answer') : answer = answer' := by
  cases h with
  | comparison c ht hp =>
    cases h' with
    | comparison _ _ hq => rw [Bool.eq_iff_iff.2 (hp.trans hq.symm)]
  | and p q => cases h'; rfl
  | or p q => cases h'; rfl
  | ints f hn hr =>
    cases h' with
    | ints _ _ hr' => rw [int_eq_ofInt_iff.2 hr, int_eq_ofInt_iff.2 hr']
    | zeroDivisor hf _ hzero => exact absurd hzero (hn hf)
  | floats f hz =>
    cases h' with
    | floats _ hz' => rw [hz.unique hz']
  | zeroDivisor hf m hzero =>
    cases h' with
    | ints _ hn _ => exact absurd hzero (hn hf)
    | zeroDivisor => rfl

/-- An operator has its outcome on two values of one type that it accepts. -/
theorem outcome_apply (ht : a.type = b.type) (ha : op.accepts a.type = true) : Outcome op a b (a.apply op b) := by
  cases op with
  | comparison c =>
    obtain ⟨o, ho⟩ := exists_compare ht
    rw [apply, ho]
    exact .comparison c ht (holds_iff_relates ht ho c)
  | connective k =>
    have hb : a.type = .boolean := of_decide_eq_true ha
    cases a <;> cases hb
    cases b <;> cases ht
    cases k with
    | and => exact .and _ _
    | or => exact .or _ _
  | arithmetic f =>
    cases a with
    | boolean p => cases ha
    | text s => cases ha
    | int w m =>
      cases b <;> cases ht
      rename_i n
      by_cases hz : f.divides = true ∧ n = 0
      · obtain ⟨hd, rfl⟩ := hz
        rw [apply, calculate_int, onInts_zero hd]
        exact .zeroDivisor (Arithmetic.divides_iff.1 hd) m (toInt_eq_zero_iff.2 rfl)
      · rw [apply, calculate_int_of_divisible hz]
        refine .ints f (fun hf hn => hz ⟨Arithmetic.divides_iff.2 hf, toInt_eq_zero_iff.1 hn⟩) ?_
        exact int_eq_ofInt_iff.1 rfl
    | float w x =>
      cases b <;> cases ht
      rw [apply, calculate_float]
      exact .floats f (f.onFloats_spec _ _)

theorem outcome_iff (ht : a.type = b.type) (ha : op.accepts a.type = true) : Outcome op a b answer ↔ answer = a.apply op b := by
  constructor
  · exact fun h => h.unique (outcome_apply ht ha)
  · rintro rfl
    exact outcome_apply ht ha

theorem Outcome.accepts (h : Outcome op a b answer) : a.type = b.type ∧ op.accepts a.type = true := by
  cases h with
  | comparison c ht => exact ⟨ht, rfl⟩
  | _ => exact ⟨rfl, rfl⟩

theorem type_eq_of_compare {o : Option Ordering} (h : a.compare b = .ok o) : a.type = b.type := by
  unfold compare at h
  split at h
  · rfl
  · split at h
    · rename_i hw
      rw [type, type, hw]
    · cases h
  · split at h
    · rename_i hw
      rw [type, type, hw]
    · cases h
  · rfl
  · cases h

theorem type_eq_of_calculate {v : Value} (h : a.calculate op b = .ok v) : a.type = b.type ∧ a.type.isNumeric = true := by
  unfold calculate at h
  split at h
  · split at h
    · rename_i hw
      rw [type, type, hw]
      exact ⟨rfl, rfl⟩
    · cases h
  · split at h
    · rename_i hw
      rw [type, type, hw]
      exact ⟨rfl, rfl⟩
    · cases h
  · split at h <;> cases h

theorem accepts_of_apply {v : Value} (h : a.apply op b = .ok v) : a.type = b.type ∧ op.accepts a.type = true := by
  cases op with
  | comparison c =>
    obtain ⟨o, ho, -⟩ := bind_eq_ok_iff.1 h
    exact ⟨type_eq_of_compare ho, rfl⟩
  | connective k =>
    cases a with
    | boolean p =>
      cases b with
      | boolean q => exact ⟨rfl, rfl⟩
      | _ => cases h
    | _ => cases h
  | arithmetic f =>
    rw [apply] at h
    exact type_eq_of_calculate h

/-- Whatever the two values are, an operator answers its outcome and nothing else. -/
theorem apply_eq_ok_iff {v : Value} : a.apply op b = .ok v ↔ Outcome op a b (.ok v) := by
  constructor
  · intro h
    obtain ⟨ht, ha⟩ := accepts_of_apply h
    rw [← h]
    exact outcome_apply ht ha
  · intro h
    obtain ⟨ht, ha⟩ := h.accepts
    exact ((outcome_iff ht ha).1 h).symm

end Value

end ColumnarQuery
