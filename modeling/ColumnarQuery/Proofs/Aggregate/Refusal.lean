import ColumnarQuery.Proofs.Aggregate.Accumulation

/-!
# Values that an aggregate refuses

A refused value leaves no trace in a running aggregate, but for numbers offered to a sum, which they end
(`Accumulator.accumulate_of_refused`, `Accumulator.accumulate_sum_of_refused`). `Accumulator.refused_unobservable` says so of
every state that can be reached, in terms of what is replied later.
-/

namespace ColumnarQuery

namespace Accumulator

inductive Request where
  | offer (v : Value)
  | answer
deriving DecidableEq

inductive Reply where
  | offered (outcome : Except Error Unit)
  | answered (outcome : Except Error Value)

def function : Accumulator → AggregateFunction
  | sum _ => .sum
  | min _ => .min
  | max _ => .max
  | avg _ _ _ => .avg
  | count _ => .count

/-- The state after values that were offered in order. -/
def after (vs : List Value) (a : Accumulator) : Accumulator :=
  vs.foldl (fun a v => (a.accumulate v).2) a

def respond (a : Accumulator) : Request → Reply × Accumulator
  | .offer v => (.offered (a.accumulate v).1, (a.accumulate v).2)
  | .answer => (.answered a.finish, a)

/-- The replies to requests, made one after another. -/
def replies : List Request → Accumulator → List Reply
  | [], _ => []
  | r :: rs, a => (a.respond r).1 :: replies rs (a.respond r).2

variable {fn : AggregateFunction} {a : Accumulator} {v : Value} {vs : List Value} {e : Error}

@[simp] theorem after_nil : a.after [] = a := rfl

@[simp] theorem after_cons : a.after (v :: vs) = (a.accumulate v).2.after vs := rfl

theorem after_append_singleton : a.after (vs ++ [v]) = ((a.after vs).accumulate v).2 := by
  simp [after]

/-! ## One value -/

@[simp] theorem function_start (fn : AggregateFunction) : fn.start.function = fn := by
  cases fn <;> rfl

theorem function_accumulate (a : Accumulator) (v : Value) : (a.accumulate v).2.function = a.function := by
  cases a with
  | sum total =>
    simp only [accumulate]
    split
    · rfl
    · split <;> rfl
  | min least =>
    simp only [accumulate]
    split <;> rfl
  | max greatest =>
    simp only [accumulate]
    split <;> rfl
  | avg total number type =>
    simp only [accumulate]
    split <;> rfl
  | count number => rfl

/-- A refused value leaves the state as it was. Of a sum this is said of values that are no numbers only. -/
theorem accumulate_of_refused (hs : a.function = .sum → v.type.isNumeric = false) (h : (a.accumulate v).1 = .error e) :
    (a.accumulate v).2 = a := by
  cases a with
  | sum total =>
    have hcheck : checkNumeric .sum v = .error (.unsupported (.aggregateInput .sum v.type)) := by
      rw [checkNumeric, hs rfl]
      rfl
    simp only [accumulate, hcheck]
  | min least =>
    simp only [accumulate] at h ⊢
    split at h
    · rfl
    · cases h
  | max greatest =>
    simp only [accumulate] at h ⊢
    split at h
    · rfl
    · cases h
  | avg total number type =>
    simp only [accumulate] at h ⊢
    split at h
    · rfl
    · cases h
  | count number => cases h

/-- A number is refused by a sum of another type only. The sum has been given up by then. -/
theorem accumulate_sum_of_refused {total : Option Value} (hn : v.type.isNumeric = true)
    (h : ((sum total).accumulate v).1 = .error e) :
    ∃ t, total = some t ∧ t.type ≠ v.type ∧ ((sum total).accumulate v).2 = sum none := by
  simp only [accumulate, checkNumeric_of_isNumeric hn] at h ⊢
  by_cases hs : ∀ c ∈ total, c.type = v.type
  · -- A sum of the type of the value takes it.
    obtain ⟨w, hw, -⟩ := exists_addTo hs hn
    rw [hw] at h
    cases h
  · push Not at hs
    obtain ⟨t, ht, hne⟩ := hs
    refine ⟨t, ht, hne, ?_⟩
    split at h
    · rfl
    · cases h

/-! ## Any number of values -/

theorem function_after (vs : List Value) (a : Accumulator) : (a.after vs).function = a.function := by
  induction vs generalizing a with
  | nil => rfl
  | cons v vs ih => rw [after_cons, ih, function_accumulate]

theorem eq_sum_of_function (h : a.function = .sum) : ∃ total, a = sum total := by
  cases a with
  | sum total => exact ⟨total, rfl⟩
  | _ => cases h

/-- After any values, taken or refused, one more that is refused cannot be told from one that was never offered: neither
by the answer, nor by the replies to any requests that follow. Numbers that a sum refuses are the exception. They are of
another type than the sum so far, and the sum starts anew. -/
theorem refused_unobservable (h : ((fn.start.after vs).accumulate v).1 = .error e) :
    ((fn = .sum → v.type.isNumeric = false) →
      (fn.start.after (vs ++ [v])).finish = (fn.start.after vs).finish ∧
        ∀ requests, (fn.start.after (vs ++ [v])).replies requests = (fn.start.after vs).replies requests) ∧
      (fn = .sum → v.type.isNumeric = true →
        ∃ total, (fn.start.after vs).finish = .ok total ∧ total.type ≠ v.type ∧
          ∀ requests, (fn.start.after (vs ++ [v])).replies requests = fn.start.replies requests) := by
  have hfunction : (fn.start.after vs).function = fn := by rw [function_after, function_start]
  rw [after_append_singleton]
  constructor
  · intro hs
    rw [accumulate_of_refused (by rwa [hfunction]) h]
    exact ⟨rfl, fun _ => rfl⟩
  · rintro rfl hn
    obtain ⟨total, htotal⟩ := eq_sum_of_function hfunction
    rw [htotal] at h ⊢
    obtain ⟨t, rfl, hne, hended⟩ := accumulate_sum_of_refused hn h
    exact ⟨t, rfl, hne, fun requests => by rw [hended]; rfl⟩

/-- A greatest value that is offered a text, and a sum of integers of 8 bits that is offered one of 16 bits. -/
theorem refused_unobservable_mixed :
    ((AggregateFunction.max.start.after [.ofInt .w32 9]).accumulate (.text "nut")).1 =
        .error (.unsupported (.aggregateInput .max .text)) ∧
      (AggregateFunction.max.start.after [.ofInt .w32 9, .text "nut"]).finish = .ok (.ofInt .w32 9) ∧
      ((AggregateFunction.sum.start.after [.ofInt .w8 1]).accumulate (.ofInt .w16 2)).1 =
        .error (.unsupported (.mixedInput .sum (.int .w8) (.int .w16))) ∧
      (AggregateFunction.sum.start.after [.ofInt .w8 1, .ofInt .w16 2]).replies [.offer (.ofInt .w16 5), .answer] =
        [.offered (.ok ()), .answered (.ok (.ofInt .w16 5))] := by
  have hmax : ((AggregateFunction.max.start.after [.ofInt .w32 9]).accumulate (.text "nut")).1 =
      .error (.unsupported (.aggregateInput .max .text)) := rfl
  have hsum : ((AggregateFunction.sum.start.after [.ofInt .w8 1]).accumulate (.ofInt .w16 2)).1 =
      .error (.unsupported (.mixedInput .sum (.int .w8) (.int .w16))) := rfl
  obtain ⟨hanswer, -⟩ := (refused_unobservable hmax).1 (fun _ => rfl)
  obtain ⟨-, -, -, hreplies⟩ := (refused_unobservable hsum).2 rfl rfl
  exact ⟨hmax, hanswer.trans rfl, hsum, (hreplies _).trans rfl⟩

/-- A sum that refused a number has lost what it had. -/
theorem sum_lost_by_refusal :
    ((AggregateFunction.sum.start.after [.ofInt .w8 1]).accumulate (.ofInt .w16 2)).1 =
        .error (.unsupported (.mixedInput .sum (.int .w8) (.int .w16))) ∧
      (AggregateFunction.sum.start.after [.ofInt .w8 1]).finish = .ok (.ofInt .w8 1) ∧
      (AggregateFunction.sum.start.after [.ofInt .w8 1, .ofInt .w16 2]).finish =
        .error (.unsupported (.noInput .sum)) :=
  ⟨rfl, rfl, rfl⟩

end Accumulator

end ColumnarQuery
