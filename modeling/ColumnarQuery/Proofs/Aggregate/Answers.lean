import ColumnarQuery.Proofs.Aggregate.Accumulation
import ColumnarQuery.Proofs.Float.Conversion
import ColumnarQuery.Proofs.Value.Integer
import Mathlib.Data.List.Induction

/-!
# The answers of aggregate functions

`AggregateFunction.answer` says what each function makes of values, without a running state: the sum and the extremes of
numbers of one type, the mean in double precision, the number of the values, or the first refusal. A run holds
`AggregateFunction.state` (`foldlM_feed_start`), so that its answer is this one (`ofValues_eq_answer`).
-/

namespace ColumnarQuery

namespace Value

/-- The sum of two numbers of one type. Integers wrap. -/
def plus : Value → Value → Value
  | int w m, int _ n => ofInt w (m.toInt + n.toInt)
  | float .single x, float .single y => float .single (x.add y)
  | float .double x, float .double y => float .double (x.add y)
  | a, _ => a

/-- A number in double precision. An integer is rounded; a number in floating point keeps its sign and its place, and a NaN
stays one. -/
inductive InDouble : Value → FloatBits .double → Prop
  | int {w : IntWidth} (n : BitVec w.bits) {x : FloatBits .double} (h : FloatBits.Rounds false n.toInt x) :
    InDouble (.int w n) x
  | float {w : FloatWidth} {y : FloatBits w} {x : FloatBits .double} (hn : x.isNaN = y.isNaN)
    (hs : x.isNegative = y.isNegative) (h : y.isNaN = false → x.place = y.place) : InDouble (.float w y) x

/-- The sum of numbers in double precision, added in order to zero. -/
def total (vs : List Value) : FloatBits .double :=
  (vs.filterMap toDouble?).foldl FloatBits.add (.zero .double false)

theorem type_plus (a b : Value) : (a.plus b).type = a.type := by
  unfold plus
  split <;> rfl

theorem calculate_add {a b : Value} (ht : a.type = b.type) (hn : b.type.isNumeric = true) :
    a.calculate (.arithmetic .add) b = .ok (a.plus b) := by
  cases b with
  | int w n =>
    cases a <;> cases ht
    rename_i m
    rw [int_eq_ofInt_toInt m, int_eq_ofInt_toInt n, calculate_add_ofInt, ← int_eq_ofInt_toInt, ← int_eq_ofInt_toInt, plus]
  | float w y =>
    cases a <;> cases ht
    rw [calculate_float]
    cases w <;> rfl
  | _ => cases hn

theorem exists_toDouble? {v : Value} (hn : v.type.isNumeric = true) : ∃ x, v.toDouble? = some x ∧ v.InDouble x := by
  cases v with
  | int w n => exact ⟨_, rfl, .int n (FloatBits.rounds_ofRat .double false _)⟩
  | float w y =>
    refine ⟨y.widen, rfl, ?_⟩
    cases hy : y.isNaN with
    | true =>
      obtain ⟨hnan, hsign⟩ := FloatBits.isNaN_widen hy
      exact .float (hnan.trans hy.symm) hsign fun h => by rw [hy] at h; cases h
    | false =>
      obtain ⟨hnumber, hsign, hplace⟩ := FloatBits.place_widen hy
      exact .float (hnumber.trans hy.symm) hsign fun _ => hplace
  | _ => cases hn

/-- There is one such number, but for the payload of a NaN. -/
theorem InDouble.unique {v : Value} {x x' : FloatBits .double} (h : v.InDouble x) (h' : v.InDouble x')
    (hx : x.isNaN = false) : x = x' := by
  cases h with
  | int n h =>
    cases h' with
    | int _ h' => exact h.unique h'
  | float hn hs h =>
    cases h' with
    | float hn' hs' h' =>
      have hy := hn.symm.trans hx
      exact FloatBits.eq_of_place hx (hn'.trans hy) (hs.trans hs'.symm) ((h hy).trans (h' hy).symm)

theorem total_concat {vs : List Value} {v : Value} (hn : v.type.isNumeric = true) :
    total (vs ++ [v]) = (total vs).add (v.toDouble?.getD (.zero .double false)) := by
  obtain ⟨x, hx, -⟩ := exists_toDouble? hn
  simp [total, List.filterMap_append, hx]

end Value

namespace AggregateFunction

/-- What a function makes of numbers of one type, of which the first is given. -/
def ofNumbers (first : Value) (rest : List Value) : AggregateFunction → Value
  | sum => rest.foldl Value.plus first
  | min => rest.foldl (fun least v => if v.compare least = .ok (some .lt) then v else least) first
  | max => rest.foldl (fun greatest v => if v.compare greatest = .ok (some .gt) then v else greatest) first
  | avg => .float .double ((Value.total (first :: rest)).div (.ofInt .double (first :: rest).length))
  | count => .ofInt .w64 (first :: rest).length

/-- Why a function does not take a value after one of type `t`. Counting takes them all. -/
def refusal? (fn : AggregateFunction) (t : DataType) (v : Value) : Option Error :=
  if fn = .count then none
  else if v.type.isNumeric then if t = v.type then none else some (.unsupported (.mixedInput fn t v.type))
  else some (.unsupported (.aggregateInput fn v.type))

/-- The answer on any values: the first refusal, if there is one. -/
def answer (fn : AggregateFunction) : List Value → Except Error Value
  | [] => if fn = .count then .ok (.ofInt .w64 0) else .error (.unsupported (.noInput fn))
  | first :: rest =>
    match (first :: rest).findSome? (fn.refusal? first.type) with
    | some e => .error e
    | none => .ok (fn.ofNumbers first rest)

/-- The state of a function that took numbers of one type. -/
def state (first : Value) (rest : List Value) : AggregateFunction → Accumulator
  | sum => .sum (some (sum.ofNumbers first rest))
  | min => .min (some (min.ofNumbers first rest))
  | max => .max (some (max.ofNumbers first rest))
  | avg => .avg (Value.total (first :: rest)) (first :: rest).length (some first.type)
  | count => .count (first :: rest).length

open Accumulator

variable {fn : AggregateFunction} {t : DataType} {v first kept : Value} {rest : List Value} {e : Error}

theorem refusal?_eq_none_iff (hc : fn ≠ .count) :
    fn.refusal? t v = none ↔ v.type.isNumeric = true ∧ t = v.type := by
  unfold refusal?
  rw [if_neg hc]
  split <;> simp_all

theorem refusal?_eq_some_iff (hc : fn ≠ .count) :
    fn.refusal? t v = some e ↔
      checkNumeric fn v = .error e ∨ checkNumeric fn v = .ok () ∧ checkSameType fn t v = .error e := by
  unfold refusal? checkNumeric checkSameType
  rw [if_neg hc]
  split
  · split <;> simp_all
  · simp

/-! ## One value -/

theorem type_foldl_ite {p : Value → Value → Prop} [DecidableRel p] (h : ∀ v ∈ rest, v.type = first.type) :
    (rest.foldl (fun kept v => if p v kept then v else kept) first).type = first.type := by
  induction rest using List.reverseRecOn with
  | nil => rfl
  | append_singleton rest v ih =>
    rw [List.forall_mem_append, List.forall_mem_singleton] at h
    rw [List.foldl_append, List.foldl_cons, List.foldl_nil]
    split
    · exact h.2
    · exact ih h.1

theorem type_foldl_plus (rest : List Value) (first : Value) : (rest.foldl Value.plus first).type = first.type := by
  induction rest generalizing first with
  | nil => rfl
  | cons v rest ih => rw [List.foldl_cons, ih, Value.type_plus]

/-- Values that are taken have the type of the first, and so has what is kept of them. -/
theorem type_ofNumbers (hf : fn = .sum ∨ fn = .min ∨ fn = .max) (h : ∀ v ∈ rest, fn.refusal? first.type v = none) :
    (fn.ofNumbers first rest).type = first.type := by
  have hc : fn ≠ .count := by
    rintro rfl
    simp at hf
  have ht : ∀ v ∈ rest, v.type = first.type := fun v hv => ((refusal?_eq_none_iff hc).1 (h v hv)).2.symm
  rcases hf with rfl | rfl | rfl
  · exact type_foldl_plus rest first
  · exact type_foldl_ite ht
  · exact type_foldl_ite ht

theorem feed_start (fn : AggregateFunction) (first : Value) :
    fn.start.feed first = match fn.refusal? first.type first with
      | some e => .error e
      | none => .ok (fn.state first []) := by
  by_cases hc : fn = .count
  · subst hc
    rfl
  · by_cases hn : first.type.isNumeric = true
    · have hcheck : ∀ fn, checkNumeric fn first = .ok () := fun fn => checkNumeric_of_isNumeric hn
      obtain ⟨x, hx, -⟩ := Value.exists_toDouble? hn
      rw [(refusal?_eq_none_iff hc).2 ⟨hn, rfl⟩]
      cases fn with
      | count => exact absurd rfl hc
      | avg => simp [start, state, feed, accumulate, averageType, hcheck, Value.total, hx, pure_eq_ok]
      | _ => simp only [start, state, feed, accumulate, extreme, addTo, hcheck, ok_bind, pure_eq_ok, ofNumbers, List.foldl_nil]
    · have hcheck : checkNumeric fn first = .error (.unsupported (.aggregateInput fn first.type)) := if_neg hn
      rw [(refusal?_eq_some_iff hc).2 (.inl hcheck)]
      cases fn with
      | count => exact absurd rfl hc
      | _ => simp only [start, feed, accumulate, extreme, averageType, hcheck, error_bind]

section Step
variable (hrest : ∀ u ∈ rest, fn.refusal? first.type u = none)
include hrest

theorem feed_state_of_refused (h : fn.refusal? first.type v = some e) : (fn.state first rest).feed v = .error e := by
  have hc : fn ≠ .count := by
    rintro rfl
    cases h
  rcases (refusal?_eq_some_iff hc).1 h with hn | ⟨hn, hsame⟩
  · cases fn with
    | count => exact absurd rfl hc
    | _ => simp only [state, feed, accumulate, extreme, averageType, hn, error_bind]
  · cases fn with
    | count => exact absurd rfl hc
    | sum =>
      have ht := type_ofNumbers (.inl rfl) hrest
      simp only [state, feed, accumulate, addTo, hn, ht, hsame, error_bind]
    | min =>
      have ht := type_ofNumbers (.inr (.inl rfl)) hrest
      simp only [state, feed, accumulate, extreme, hn, ht, hsame, ok_bind, error_bind]
    | max =>
      have ht := type_ofNumbers (.inr (.inr rfl)) hrest
      simp only [state, feed, accumulate, extreme, hn, ht, hsame, ok_bind, error_bind]
    | avg => simp only [state, feed, accumulate, averageType, hn, hsame, ok_bind, error_bind]

theorem feed_state_of_taken (h : fn.refusal? first.type v = none) :
    (fn.state first rest).feed v = .ok (fn.state first (rest ++ [v])) := by
  by_cases hc : fn = .count
  · subst hc
    simp [state, feed, accumulate]
  · obtain ⟨hn, hv⟩ := (refusal?_eq_none_iff hc).1 h
    have hcheck : ∀ fn, checkNumeric fn v = .ok () := fun fn => checkNumeric_of_isNumeric hn
    cases fn with
    | count => exact absurd rfl hc
    | sum =>
      have ht := (type_ofNumbers (.inl rfl) hrest).trans hv
      simp only [state, feed, accumulate, addTo, hcheck, ht, checkSameType_self, ok_bind, Value.calculate_add ht hn]
      simp [ofNumbers]
    | min =>
      have ht := (type_ofNumbers (.inr (.inl rfl)) hrest).trans hv
      obtain ⟨o, ho⟩ := Value.exists_compare ht.symm
      simp only [state, feed, accumulate, extreme, hcheck, ht, checkSameType_self, ok_bind, ho, pure_eq_ok]
      rw [ofNumbers] at ho
      simp [ofNumbers, ho]
    | max =>
      have ht := (type_ofNumbers (.inr (.inr rfl)) hrest).trans hv
      obtain ⟨o, ho⟩ := Value.exists_compare ht.symm
      simp only [state, feed, accumulate, extreme, hcheck, ht, checkSameType_self, ok_bind, ho, pure_eq_ok]
      rw [ofNumbers] at ho
      simp [ofNumbers, ho]
    | avg =>
      simp only [state, feed, accumulate, averageType, hcheck, hv, checkSameType_self, ok_bind, pure_eq_ok]
      rw [← List.cons_append, Value.total_concat hn, List.length_append, List.length_singleton]

end Step

/-! ## Any number of values -/

/-- A run ends at the first refusal. -/
theorem foldlM_feed_start (fn : AggregateFunction) (first : Value) (rest : List Value) :
    (first :: rest).foldlM feed fn.start = match (first :: rest).findSome? (fn.refusal? first.type) with
      | some e => .error e
      | none => .ok (fn.state first rest) := by
  induction rest using List.reverseRecOn with
  | nil =>
    rw [List.foldlM_cons, feed_start, List.findSome?_cons]
    cases fn.refusal? first.type first <;> rfl
  | append_singleton rest v ih =>
    rw [← List.cons_append, List.foldlM_append, List.findSome?_append, ih]
    cases hrun : (first :: rest).findSome? (fn.refusal? first.type) with
    | some e => rfl
    | none =>
      -- None of the values so far was refused, which is what the step asks for.
      have hrest : ∀ u ∈ rest, fn.refusal? first.type u = none := fun u hu =>
        List.findSome?_eq_none_iff.1 hrun u (List.mem_cons_of_mem first hu)
      rw [ok_bind, List.foldlM_cons, Option.none_or, List.findSome?_singleton]
      cases hv : fn.refusal? first.type v with
      | some e => rw [feed_state_of_refused hrest hv, error_bind]
      | none => rw [feed_state_of_taken hrest hv, ok_bind, List.foldlM_nil, pure_eq_ok]

theorem finish_state (fn : AggregateFunction) (first : Value) (rest : List Value) :
    (fn.state first rest).finish = .ok (fn.ofNumbers first rest) := by
  cases fn with
  | avg => rw [state, finish, if_neg (by simp), ofNumbers]
  | _ => rfl

/-- A running aggregate answers what its function makes of all the values, or refuses the first that the function does not
take. -/
theorem ofValues_eq_answer (fn : AggregateFunction) (vs : List Value) : fn.ofValues vs = fn.answer vs := by
  cases vs with
  | nil => cases fn <;> rfl
  | cons first rest =>
    rw [ofValues, foldlM_feed_start, answer]
    cases (first :: rest).findSome? (fn.refusal? first.type) with
    | some e => rfl
    | none => exact finish_state fn first rest

end AggregateFunction

end ColumnarQuery
