import ColumnarQuery.Proofs.Aggregate.Exact

/-!
# Least and greatest values

`IsExtreme` : of values of which the first is given, one to which none stands in an order: the first such number, with NaNs
left aside, unless the first of all is a NaN. The extreme functions keep it over any number of values
(`AggregateFunction.exists_extreme_of_foldlM`).
-/

namespace ColumnarQuery

/-- The functions that keep an extreme, each with the order to the kept value in which another one replaces it. -/
inductive AggregateFunction.Keeps : AggregateFunction → Ordering → Prop
  | max : Keeps .max .gt
  | min : Keeps .min .lt

open AggregateFunction (Keeps)

/-! ## Numbers beyond each other -/

namespace Value

section Order
variable {fn : AggregateFunction} {o : Ordering} {a b c : Value} {t : DataType} (ha : a.type = t) (hb : b.type = t)
  (hn : t.isNumeric = true)
include ha hn

theorem not_compare_self (hk : Keeps fn o) : a.compare a ≠ .ok (some o) := by
  intro h
  obtain ⟨i, j, hi, hj, ho⟩ := (compare_eq_some_iff ha ha hn).1 h
  rw [hi, Option.some.injEq] at hj
  cases hk with
  | max => rw [compareInts_eq_gt_iff] at ho; omega
  | min => rw [compareInts_eq_lt_iff] at ho; omega

include hb

theorem isNaN_of_compare (h : a.compare b = .ok (some o)) : a.isNaN = false ∧ b.isNaN = false := by
  obtain ⟨i, j, hi, hj, -⟩ := (compare_eq_some_iff ha hb hn).1 h
  exact ⟨isNaN_of_orderKey? hi, isNaN_of_orderKey? hj⟩

theorem not_compare_of_compare (hk : Keeps fn o) (h : a.compare b = .ok (some o)) : b.compare a ≠ .ok (some o) := by
  intro h'
  obtain ⟨i, j, hi, hj, ho⟩ := (compare_eq_some_iff ha hb hn).1 h
  obtain ⟨j', i', hj', hi', ho'⟩ := (compare_eq_some_iff hb ha hn).1 h'
  rw [hi, Option.some.injEq] at hi'
  rw [hj, Option.some.injEq] at hj'
  cases hk with
  | max => rw [compareInts_eq_gt_iff] at ho ho'; omega
  | min => rw [compareInts_eq_lt_iff] at ho ho'; omega

/-- A number beyond one that another number is not beyond is beyond that other number. -/
theorem compare_of_not_compare (hk : Keeps fn o) (hc : c.type = t) (hab : a.compare b = .ok (some o))
    (hcb : c.compare b ≠ .ok (some o)) (hnan : c.isNaN = false) : a.compare c = .ok (some o) := by
  obtain ⟨i, j, hi, hj, ho⟩ := (compare_eq_some_iff ha hb hn).1 hab
  obtain ⟨k, hkey⟩ := exists_orderKey? hc hn hnan
  have hkj : compareInts k j ≠ o := fun h => hcb ((compare_eq_some_iff hc hb hn).2 ⟨k, j, hkey, hj, h⟩)
  refine (compare_eq_some_iff ha hc hn).2 ⟨i, k, hi, hkey, ?_⟩
  cases hk with
  | max => simp only [ne_eq, compareInts_eq_gt_iff] at *; omega
  | min => simp only [ne_eq, compareInts_eq_lt_iff] at *; omega

end Order

end Value

/-! ## Extremes -/

/-- A value is the extreme of values of which the first is given: none of them stands to it in the given order, and it is
the first of the numbers of which that holds. A NaN in front of all is kept; any other is left aside. -/
structure IsExtreme (o : Ordering) (first : Value) (rest : List Value) (w : Value) : Prop where
  mem : w ∈ first :: rest
  unsurpassed : ∀ v ∈ first :: rest, v.compare w ≠ .ok (some o)
  of_isNaN : first.isNaN = true → w = first
  of_number : first.isNaN = false → w.isNaN = false ∧
    ∃ before after, first :: rest = before ++ w :: after ∧
      ∀ u ∈ before, u.isNaN = false → ∃ v ∈ first :: rest, v.compare u = .ok (some o)

namespace IsExtreme
variable {fn : AggregateFunction} {o : Ordering} {first v w : Value} {rest : List Value}

theorem singleton (hk : Keeps fn o) (hn : first.type.isNumeric = true) : IsExtreme o first [] first where
  mem := List.mem_singleton_self first
  unsurpassed := by
    rw [List.forall_mem_singleton]
    exact Value.not_compare_self rfl hn hk
  of_isNaN _ := rfl
  of_number hfirst := ⟨hfirst, [], [], rfl, fun _ hu => nomatch hu⟩

theorem keep (h : IsExtreme o first rest w) (hv : v.compare w ≠ .ok (some o)) : IsExtreme o first (rest ++ [v]) w where
  mem := List.mem_append_left [v] h.mem
  unsurpassed u hu := by
    rcases List.mem_append.1 (List.cons_append ▸ hu) with hu | hu
    · exact h.unsurpassed u hu
    · rwa [List.mem_singleton.1 hu]
  of_isNaN := h.of_isNaN
  of_number hfirst := by
    obtain ⟨hw, before, after, hsplit, hbefore⟩ := h.of_number hfirst
    refine ⟨hw, before, after ++ [v], ?_, fun u hu hnan => ?_⟩
    · rw [← List.cons_append, hsplit, List.append_assoc, List.cons_append]
    · obtain ⟨x, hx, hxu⟩ := hbefore u hu hnan
      exact ⟨x, List.mem_append_left [v] hx, hxu⟩

theorem replace (hk : Keeps fn o) (hn : v.type.isNumeric = true) (ht : ∀ u ∈ first :: rest, u.type = v.type)
    (h : IsExtreme o first rest w) (hv : v.compare w = .ok (some o)) : IsExtreme o first (rest ++ [v]) v := by
  have hw : w.type = v.type := ht w h.mem
  have hnan := Value.isNaN_of_compare rfl hw hn hv
  have hbeyond : ∀ u ∈ first :: rest, u.isNaN = false → v.compare u = .ok (some o) := fun u hu =>
    Value.compare_of_not_compare rfl hw hn hk (ht u hu) hv (h.unsurpassed u hu)
  refine ⟨by simp, fun u hu huv => ?_, fun hfirst => ?_, fun _ => ⟨hnan.1, first :: rest, [], rfl, fun u hu hun => ?_⟩⟩
  · rcases List.mem_append.1 (List.cons_append ▸ hu) with hu | hu
    · have hun := (Value.isNaN_of_compare (ht u hu) rfl hn huv).1
      exact Value.not_compare_of_compare rfl (ht u hu) hn hk (hbeyond u hu hun) huv
    · rw [List.mem_singleton.1 hu] at huv
      exact Value.not_compare_self rfl hn hk huv
  · -- The extreme would be a NaN, to which nothing stands in an order.
    rw [h.of_isNaN hfirst, hfirst] at hnan
    cases hnan.2
  · exact ⟨v, by simp, hbeyond u hu hun⟩

end IsExtreme

/-! ## Running extremes -/

namespace AggregateFunction
variable {fn : AggregateFunction} {o : Ordering} {first v w : Value} {rest vs : List Value} {t : DataType}

/-- One more value replaces the kept one if it stands to it in the order, and is taken in any case. -/
theorem exists_feed_running (hk : Keeps fn o) (ht : v.type = w.type) (hn : v.type.isNumeric = true) :
    ∃ u, (fn.running (some w)).feed v = .ok (fn.running (some u)) ∧
      (v.compare w = .ok (some o) ∧ u = v ∨ v.compare w ≠ .ok (some o) ∧ u = w) := by
  obtain ⟨p, hp⟩ := Value.exists_compare ht
  have hextreme : Accumulator.extreme fn o (some w) v = .ok (if p = some o then v else w) := by
    simp only [Accumulator.extreme, Accumulator.checkNumeric_of_isNumeric hn, ok_bind, ← ht,
      Accumulator.checkSameType_self, hp, pure_eq_ok]
  refine ⟨if p = some o then v else w, ?_, ?_⟩
  · cases hk <;> simp only [running, Accumulator.feed, Accumulator.accumulate, hextreme]
  · rw [hp]
    split <;> simp [*]

/-- The invariant of a run: the state holds the extreme of the values so far. -/
theorem exists_extreme_of_foldlM (hk : Keeps fn o) (hn : t.isNumeric = true) (ht : ∀ v ∈ first :: rest, v.type = t) :
    ∃ w, (first :: rest).foldlM Accumulator.feed fn.start = .ok (fn.running (some w)) ∧ IsExtreme o first rest w := by
  induction rest using List.reverseRecOn with
  | nil =>
    have hfirst : first.type.isNumeric = true := by rw [ht first List.mem_cons_self, hn]
    refine ⟨first, ?_, .singleton hk hfirst⟩
    cases hk <;> simp [Accumulator.feed, start, running, Accumulator.accumulate, Accumulator.extreme,
      Accumulator.checkNumeric_of_isNumeric hfirst]
  | append_singleton rest v ih =>
    rw [← List.cons_append, List.forall_mem_append, List.forall_mem_singleton] at ht
    obtain ⟨hall, rfl⟩ := ht
    obtain ⟨w, hw, hextreme⟩ := ih hall
    obtain ⟨u, hu, hcases⟩ := exists_feed_running hk (hall w hextreme.mem).symm hn
    refine ⟨u, ?_, ?_⟩
    · rw [← List.cons_append, List.foldlM_append, hw, ok_bind, List.foldlM_cons, hu, ok_bind, List.foldlM_nil, pure_eq_ok]
    · rcases hcases with ⟨hbeyond, rfl⟩ | ⟨hbehind, rfl⟩
      · exact hextreme.replace hk hn hall hbeyond
      · exact hextreme.keep hbehind

/-- Values of one numeric type are all taken by an extreme function, and its answer after every prefix is the extreme of
the prefix. -/
theorem ofValues_isExtreme (hk : Keeps fn o) (hn : t.isNumeric = true) (ht : ∀ v ∈ vs, v.type = t) :
    (∃ a, vs.foldlM Accumulator.feed fn.start = .ok a) ∧
      ∀ first rest, first :: rest <+: vs → ∃ w, fn.ofValues (first :: rest) = .ok w ∧ IsExtreme o first rest w := by
  constructor
  · cases vs with
    | nil => exact ⟨fn.start, rfl⟩
    | cons first rest =>
      obtain ⟨w, hw, -⟩ := exists_extreme_of_foldlM hk hn ht
      exact ⟨_, hw⟩
  · intro first rest hinit
    obtain ⟨w, hw, hextreme⟩ := exists_extreme_of_foldlM hk hn fun v hv => ht v (hinit.subset hv)
    refine ⟨w, ?_, hextreme⟩
    rw [ofValues, hw, ok_bind]
    cases hk <;> rfl

/-- Of the two zeros and a NaN the greatest is the zero that came first, and the least as well; a NaN in front stays. -/
theorem ofValues_isExtreme_zeros :
    let negative : Value := .float .double (.zero .double true)
    let positive : Value := .float .double (.zero .double false)
    let nan : Value := .float .double (.invalid .double)
    (max.ofValues [negative, positive, nan] = .ok negative ∧ IsExtreme .gt negative [positive, nan] negative) ∧
      (min.ofValues [positive, negative, nan] = .ok positive ∧ IsExtreme .lt positive [negative, nan] positive) ∧
      max.ofValues [nan, positive] = .ok nan ∧ IsExtreme .gt nan [positive] nan := by
  intro negative positive nan
  have hzeros : ∀ v ∈ [negative, positive, nan], v.type = .float .double := by decide
  have hswapped : ∀ v ∈ [positive, negative, nan, positive], v.type = .float .double := by decide
  have hnan : ∀ v ∈ [nan, positive], v.type = .float .double := by decide
  obtain ⟨u, hu, hgreatest⟩ := (ofValues_isExtreme .max rfl hzeros).2 negative [positive, nan] ⟨[], rfl⟩
  obtain ⟨w, hw, hleast⟩ := (ofValues_isExtreme .min rfl hswapped).2 positive [negative, nan] ⟨[positive], rfl⟩
  obtain ⟨x, hx, hstays⟩ := (ofValues_isExtreme .max rfl hnan).2 nan [positive] ⟨[], rfl⟩
  have hu' : max.ofValues [negative, positive, nan] = .ok negative := rfl
  have hw' : min.ofValues [positive, negative, nan] = .ok positive := rfl
  have hx' : max.ofValues [nan, positive] = .ok nan := rfl
  rw [hu', Except.ok.injEq] at hu
  rw [hw', Except.ok.injEq] at hw
  rw [hx', Except.ok.injEq] at hx
  exact ⟨⟨hu', hu ▸ hgreatest⟩, ⟨hw', hw ▸ hleast⟩, hx', hx ▸ hstays⟩

end AggregateFunction

end ColumnarQuery
