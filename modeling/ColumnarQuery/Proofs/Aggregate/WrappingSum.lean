import Mathlib.Algebra.BigOperators.Group.List.Basic
import ColumnarQuery.Proofs.Aggregate.Exact
import ColumnarQuery.Proofs.Value.Integer

/-!
# Sums of integers that wrap

* `AggregateFunction.foldlM_feed_sum` : a running sum is the residue of the exact sum so far, though it wraps at each step;
* `AggregateFunction.ofValues_sum_ints` : hence it depends neither on the order of the integers nor on how they are split.
-/

namespace ColumnarQuery

/-! ## Running sums -/

namespace AggregateFunction
variable {w : IntWidth}

/-- The invariant of a run: the sum is the residue of the exact sum, wherever it wrapped before. -/
theorem foldlM_feed_sum (as : List (BitVec w.bits)) (n : Int) :
    (as.map (Value.int w)).foldlM Accumulator.feed (.sum (some (.ofInt w n))) =
      .ok (.sum (some (.ofInt w (n + (as.map BitVec.toInt).sum)))) := by
  induction as generalizing n with
  | nil => simp [pure_eq_ok]
  | cons a as ih =>
    have hadd : Accumulator.addTo (some (.ofInt w n)) (.int w a) = .ok (.ofInt w (n + a.toInt)) := by
      rw [Value.int_eq_ofInt_toInt a, ← Value.calculate_add_ofInt]
      simp [Accumulator.addTo, Accumulator.checkSameType, Value.ofInt, Value.type]
    have hfeed : Accumulator.feed (.sum (some (.ofInt w n))) (.int w a) = .ok (.sum (some (.ofInt w (n + a.toInt)))) := by
      have hnumeric : (Value.int w a).type.isNumeric = true := rfl
      unfold Accumulator.feed
      simp only [Accumulator.accumulate, Accumulator.checkNumeric_of_isNumeric hnumeric, hadd]
    rw [List.map_cons, List.foldlM_cons, hfeed, ok_bind, ih, List.map_cons, List.sum_cons, Int.add_assoc]

theorem ofValues_sum_eq_ofInt {as : List (BitVec w.bits)} (h : as ≠ []) :
    sum.ofValues (as.map (Value.int w)) = .ok (.ofInt w (as.map BitVec.toInt).sum) := by
  cases as with
  | nil => exact absurd rfl h
  | cons a as =>
    have hfirst : Accumulator.feed sum.start (.int w a) = .ok (.sum (some (.ofInt w a.toInt))) := by
      rw [← Value.int_eq_ofInt_toInt]
      rfl
    rw [ofValues, List.map_cons, List.foldlM_cons, hfirst, ok_bind, foldlM_feed_sum, List.map_cons, List.sum_cons]
    rfl

/-- The sum of one or more integers of a width exists: it is the integer of the width that is congruent to their exact
sum. So it is the same in any order, and the sum of the sums of two parts. -/
theorem ofValues_sum_ints {as : List (BitVec w.bits)} (h : as ≠ []) :
    ∃ s : BitVec w.bits, sum.ofValues (as.map (Value.int w)) = .ok (.int w s) ∧
      (∀ r : BitVec w.bits, r.toInt ≡ (as.map BitVec.toInt).sum [ZMOD 2 ^ w.bits] ↔ r = s) ∧
      (∀ bs : List (BitVec w.bits), bs.Perm as → sum.ofValues (bs.map (Value.int w)) = .ok (.int w s)) ∧
      ∀ bs cs : List (BitVec w.bits), bs ≠ [] → cs ≠ [] → bs ++ cs = as → ∃ x y,
        sum.ofValues (bs.map (Value.int w)) = .ok x ∧ sum.ofValues (cs.map (Value.int w)) = .ok y ∧
          x.calculate (.arithmetic .add) y = .ok (.int w s) := by
  refine ⟨BitVec.ofInt w.bits (as.map BitVec.toInt).sum, ofValues_sum_eq_ofInt h, fun r => ?_, fun bs hperm => ?_, ?_⟩
  · rw [← Value.int_eq_ofInt_iff]
    simp [Value.ofInt]
  · have hne : bs ≠ [] := fun hnil => h (List.perm_nil.1 (hnil ▸ hperm).symm)
    rw [ofValues_sum_eq_ofInt hne, (hperm.map BitVec.toInt).sum_eq]
    rfl
  · rintro bs cs hbs hcs rfl
    refine ⟨_, _, ofValues_sum_eq_ofInt hbs, ofValues_sum_eq_ofInt hcs, ?_⟩
    rw [Value.calculate_add_ofInt, List.map_append, List.sum_append]
    rfl

/-- The first two integers overflow and the third brings the sum back into the width. -/
theorem ofValues_sum_ints_overflow :
    [100#8, 100#8, 156#8] ≠ [] ∧
      sum.ofValues [.int .w8 100#8, .int .w8 100#8, .int .w8 156#8] = .ok (.int .w8 100#8) ∧
      ∃ s : BitVec 8, sum.ofValues [.int .w8 100#8, .int .w8 100#8, .int .w8 156#8] = .ok (.int .w8 s) ∧
        (∀ r : BitVec 8, r.toInt ≡ 100 [ZMOD 2 ^ 8] ↔ r = s) ∧
        (∀ bs : List (BitVec 8), bs.Perm [100#8, 100#8, 156#8] →
          sum.ofValues (bs.map (Value.int .w8)) = .ok (.int .w8 s)) ∧
        ∀ bs cs : List (BitVec 8), bs ≠ [] → cs ≠ [] → bs ++ cs = [100#8, 100#8, 156#8] → ∃ x y,
          sum.ofValues (bs.map (Value.int .w8)) = .ok x ∧ sum.ofValues (cs.map (Value.int .w8)) = .ok y ∧
            x.calculate (.arithmetic .add) y = .ok (.int .w8 s) :=
  have hsome : [100#8, 100#8, 156#8] ≠ [] := by simp
  ⟨hsome, rfl, ofValues_sum_ints (w := .w8) hsome⟩

end AggregateFunction

end ColumnarQuery
