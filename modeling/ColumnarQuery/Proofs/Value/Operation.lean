import ColumnarQuery.Value.Operation
import ColumnarQuery.Proofs.Traversal

/-!
# Binary operators on two values of one type

An operator that accepts the type has an answer of its result type (`Value.exists_apply`), but for an integer divided by
zero (`Value.apply_eq_error_iff`). `Value.exists_compare`: values of one type can be compared.
-/

namespace ColumnarQuery

def BinaryOp.divides : BinaryOp → Bool
  | arithmetic f => f.divides
  | _ => false

theorem Arithmetic.divides_iff {f : Arithmetic} : f.divides = true ↔ f = .div ∨ f = .rem := by
  cases f <;> simp [divides]

theorem BinaryOp.divides_iff {op : BinaryOp} : op.divides = true ↔ op = .arithmetic .div ∨ op = .arithmetic .rem := by
  cases op <;> simp [divides, Arithmetic.divides_iff]

theorem BinaryOp.resultType_of_divides {op : BinaryOp} (h : op.divides = true) (t : DataType) : op.resultType t = t := by
  cases op with
  | comparison => cases h
  | connective => cases h
  | arithmetic => rfl

namespace Value

def isIntegerZero : Value → Bool
  | int _ n => n = 0
  | _ => false

theorem isInteger_of_isIntegerZero {v : Value} (h : v.isIntegerZero = true) : v.type.isInteger = true := by
  cases v with
  | int w n => rfl
  | _ => cases h

theorem exists_compare {a b : Value} (h : a.type = b.type) : ∃ o, a.compare b = .ok o := by
  cases a <;> cases b <;> simp only [type, reduceCtorEq, DataType.int.injEq, DataType.float.injEq] at h
  · exact ⟨_, rfl⟩
  · rw [compare, if_pos h]
    exact ⟨_, rfl⟩
  · rw [compare, dif_pos h]
    exact ⟨_, rfl⟩
  · exact ⟨_, rfl⟩

theorem calculate_int (f : Arithmetic) {w : IntWidth} (m n : BitVec w.bits) :
    (int w m).calculate (.arithmetic f) (int w n) = int w <$> f.onInts m n := by
  rw [calculate, dif_pos rfl]

theorem calculate_float (f : Arithmetic) {w : FloatWidth} (x y : FloatBits w) :
    (float w x).calculate (.arithmetic f) (float w y) = .ok (float w (f.onFloats x y)) := by
  rw [calculate, dif_pos rfl]

theorem onInts_zero {f : Arithmetic} (h : f.divides = true) {n : Nat} (a : BitVec n) :
    f.onInts a 0 = .error .divisionByZero := by
  unfold Arithmetic.onInts
  rw [if_pos (by simpa using h)]

theorem exists_onInts (f : Arithmetic) {n : Nat} (a : BitVec n) {b : BitVec n} (h : ¬ (f.divides = true ∧ b = 0)) :
    ∃ c, f.onInts a b = .ok c := by
  unfold Arithmetic.onInts
  rw [if_neg (by simpa using h)]
  cases f <;> exact ⟨_, rfl⟩

section Accepted
variable {op : BinaryOp} {a b : Value} (ht : a.type = b.type) (ha : op.accepts a.type = true)
include ht ha

theorem exists_apply (hz : ¬ (op.divides = true ∧ b.isIntegerZero = true)) :
    ∃ v, a.apply op b = .ok v ∧ v.type = op.resultType a.type := by
  cases op with
  | comparison c =>
    obtain ⟨o, ho⟩ := exists_compare ht
    exact ⟨boolean (c.holds o), by rw [apply, ho]; rfl, rfl⟩
  | connective c =>
    have hb : a.type = .boolean := of_decide_eq_true ha
    cases a <;> cases hb
    cases b <;> cases ht
    exact ⟨_, rfl, rfl⟩
  | arithmetic f =>
    cases a with
    | boolean p => cases ha
    | text s => cases ha
    | int w m =>
      cases b <;> cases ht
      rename_i n
      obtain ⟨c, hc⟩ := exists_onInts f m (b := n) (by simpa [BinaryOp.divides, isIntegerZero] using hz)
      exact ⟨int w c, by rw [apply, calculate_int, hc, map_ok], rfl⟩
    | float w x =>
      cases b <;> cases ht
      rename_i y
      exact ⟨_, by rw [apply, calculate_float], rfl⟩

/-- Of two values of an accepted type only an integer divided by zero has no answer. -/
theorem apply_eq_error_iff {e : Error} :
    a.apply op b = .error e ↔ (op.divides = true ∧ b.isIntegerZero = true) ∧ e = .divisionByZero := by
  by_cases hz : op.divides = true ∧ b.isIntegerZero = true
  · obtain ⟨hd, h0⟩ := hz
    cases op with
    | comparison c => cases hd
    | connective c => cases hd
    | arithmetic f =>
      cases b with
      | int w n =>
        cases a <;> cases ht
        rename_i m
        have hn : n = 0 := of_decide_eq_true h0
        rw [apply, calculate_int, map_eq_error_iff, hn, onInts_zero hd]
        simp [hd, isIntegerZero, eq_comm]
      | _ => cases h0
  · obtain ⟨v, hv, -⟩ := exists_apply ht ha hz
    simp [hv, hz]

theorem type_of_apply_eq_ok {v : Value} (h : a.apply op b = .ok v) : v.type = op.resultType a.type := by
  by_cases hz : op.divides = true ∧ b.isIntegerZero = true
  · have := (apply_eq_error_iff ht ha).2 ⟨hz, rfl⟩
    rw [h] at this
    cases this
  · obtain ⟨w, hw, hwt⟩ := exists_apply ht ha hz
    rw [h] at hw
    cases hw
    exact hwt

end Accepted

end Value

end ColumnarQuery
