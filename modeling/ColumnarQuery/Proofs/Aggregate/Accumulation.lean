import ColumnarQuery.Aggregate.Groups
import ColumnarQuery.Proofs.Value.Operation

/-!
# What aggregate functions make of values of one type

`AggregateFunction.ofValues` is the answer on values taken in order. Values of a type that the function accepts are taken
(`Accumulator.exists_feed`) and have an answer (`Accumulator.exists_finish`). `AggregateInputs` are several aggregates side
by side, and `foldlM_feedAll_rowsOf_eq_ok_iff` takes their states apart.
-/

namespace ColumnarQuery

def AggregateFunction.accepts (fn : AggregateFunction) (t : DataType) : Bool :=
  fn = .count || t.isNumeric

/-- The answer on values taken in order. -/
def AggregateFunction.ofValues (fn : AggregateFunction) (vs : List Value) : Except Error Value := do
  (← vs.foldlM Accumulator.feed fn.start).finish

namespace Accumulator

/-- The states of a function after one or more values of a type. -/
inductive Holds (t : DataType) : AggregateFunction → Accumulator → Prop
  | sum {v : Value} : v.type = t → Holds t .sum (.sum (some v))
  | min {v : Value} : v.type = t → Holds t .min (.min (some v))
  | max {v : Value} : v.type = t → Holds t .max (.max (some v))
  | avg {x : FloatBits .double} {n : Nat} : n ≠ 0 → Holds t .avg (.avg x n (some t))
  | count {n : Nat} : Holds t .count (.count n)

/-- The states of a function after any number of values of a type. -/
def Follows (t : DataType) (fn : AggregateFunction) (a : Accumulator) : Prop :=
  a = fn.start ∨ Holds t fn a

variable {t : DataType} {fn : AggregateFunction} {a b : Accumulator} {v : Value}

/-! ## Parts of a step -/

theorem checkNumeric_of_isNumeric (h : v.type.isNumeric = true) : checkNumeric fn v = .ok () := by
  rw [checkNumeric, if_pos h]

theorem checkSameType_self (fn : AggregateFunction) (v : Value) : checkSameType fn v.type v = .ok () := by
  rw [checkSameType, if_pos rfl]

theorem exists_extreme (fn : AggregateFunction) (wanted : Ordering) {state : Option Value}
    (hs : ∀ c ∈ state, c.type = v.type) (hv : v.type.isNumeric = true) :
    ∃ w, extreme fn wanted state v = .ok w ∧ w.type = v.type := by
  unfold extreme
  rw [checkNumeric_of_isNumeric hv, ok_bind]
  cases state with
  | none => exact ⟨v, rfl, rfl⟩
  | some c =>
    have hc : c.type = v.type := hs c rfl
    obtain ⟨o, ho⟩ := Value.exists_compare hc.symm
    refine ⟨if o = some wanted then v else c, ?_, by split <;> simp [hc]⟩
    simp only [hc, checkSameType_self, ok_bind, ho, pure_eq_ok]

theorem exists_addTo {total : Option Value} (hs : ∀ c ∈ total, c.type = v.type) (hv : v.type.isNumeric = true) :
    ∃ w, addTo total v = .ok w ∧ w.type = v.type := by
  unfold addTo
  cases total with
  | none => exact ⟨v, rfl, rfl⟩
  | some c =>
    have hc : c.type = v.type := hs c rfl
    have hz : ¬ ((BinaryOp.arithmetic .add).divides = true ∧ v.isIntegerZero = true) := fun h => nomatch h.1
    have ha : (BinaryOp.arithmetic .add).accepts c.type = true := by
      rw [hc]
      exact hv
    obtain ⟨w, hw, hwt⟩ := Value.exists_apply hc ha hz
    refine ⟨w, ?_, by rw [hwt, ← hc]; rfl⟩
    simp only [hc, checkSameType_self, ok_bind]
    exact hw

theorem averageType_eq_ok {type : Option DataType} (hs : ∀ u ∈ type, u = v.type) (hv : v.type.isNumeric = true) :
    averageType type v = .ok v.type := by
  unfold averageType
  rw [checkNumeric_of_isNumeric hv, ok_bind]
  cases type with
  | none => rfl
  | some u =>
    have hu : u = v.type := hs u rfl
    simp only [hu, checkSameType_self, ok_bind, pure_eq_ok]

/-! ## Steps -/

/-- A value of a type that the function accepts is taken. -/
theorem exists_feed (h : Follows v.type fn a) (hv : fn.accepts v.type = true) :
    ∃ b, a.feed v = .ok b ∧ Holds v.type fn b := by
  unfold feed
  cases fn with
  | sum =>
    obtain ⟨total, rfl, hs⟩ : ∃ total, a = sum total ∧ ∀ c ∈ total, c.type = v.type := by
      rcases h with rfl | h
      · exact ⟨none, rfl, fun c hc => nomatch hc⟩
      · cases h with
        | sum ht => exact ⟨_, rfl, by simpa using ht⟩
    obtain ⟨w, hw, hwt⟩ := exists_addTo hs hv
    exact ⟨sum (some w), by rw [accumulate, checkNumeric_of_isNumeric hv]; simp only [hw], .sum hwt⟩
  | min =>
    obtain ⟨least, rfl, hs⟩ : ∃ least, a = min least ∧ ∀ c ∈ least, c.type = v.type := by
      rcases h with rfl | h
      · exact ⟨none, rfl, fun c hc => nomatch hc⟩
      · cases h with
        | min ht => exact ⟨_, rfl, by simpa using ht⟩
    obtain ⟨w, hw, hwt⟩ := exists_extreme .min .lt hs hv
    exact ⟨min (some w), by simp only [accumulate, hw], .min hwt⟩
  | max =>
    obtain ⟨greatest, rfl, hs⟩ : ∃ greatest, a = max greatest ∧ ∀ c ∈ greatest, c.type = v.type := by
      rcases h with rfl | h
      · exact ⟨none, rfl, fun c hc => nomatch hc⟩
      · cases h with
        | max ht => exact ⟨_, rfl, by simpa using ht⟩
    obtain ⟨w, hw, hwt⟩ := exists_extreme .max .gt hs hv
    exact ⟨max (some w), by simp only [accumulate, hw], .max hwt⟩
  | avg =>
    obtain ⟨x, n, type, rfl, hs⟩ : ∃ x n type, a = avg x n type ∧ ∀ u ∈ type, u = v.type := by
      rcases h with rfl | h
      · exact ⟨_, _, none, rfl, fun c hc => nomatch hc⟩
      · cases h with
        | avg hn => exact ⟨_, _, _, rfl, by simp⟩
    have hw := averageType_eq_ok hs hv
    exact ⟨_, by simp only [accumulate, hw]; rfl, .avg n.succ_ne_zero⟩
  | count =>
    obtain ⟨n, rfl⟩ : ∃ n, a = count n := by
      rcases h with rfl | h
      · exact ⟨0, rfl⟩
      · cases h with
        | count => exact ⟨_, rfl⟩
    exact ⟨count (n + 1), rfl, .count⟩

theorem feed_of_accepts_eq_false (h : Follows v.type fn a) (hv : fn.accepts v.type = false) :
    a.feed v = .error (.unsupported (.aggregateInput fn v.type)) := by
  have hnum : ¬ v.type.isNumeric = true := by
    intro hn
    rw [AggregateFunction.accepts, hn, Bool.or_true] at hv
    cases hv
  have hcheck : checkNumeric fn v = .error (.unsupported (.aggregateInput fn v.type)) := by
    rw [checkNumeric, if_neg hnum]
  unfold feed
  rcases h with rfl | h
  · cases fn with
    | count => cases hv
    | _ => simp only [AggregateFunction.start, accumulate, extreme, averageType, hcheck, error_bind]
  · cases h with
    | count => cases hv
    | _ => simp only [accumulate, extreme, averageType, hcheck, error_bind]

theorem exists_finish (h : Holds t fn a) : ∃ v, a.finish = .ok v ∧ v.type = fn.resultType t := by
  cases h with
  | sum ht => exact ⟨_, rfl, ht⟩
  | min ht => exact ⟨_, rfl, ht⟩
  | max ht => exact ⟨_, rfl, ht⟩
  | avg hn => exact ⟨_, by rw [finish, if_neg hn], rfl⟩
  | count => exact ⟨_, rfl, rfl⟩

end Accumulator

/-! ## Several states side by side -/

open Accumulator

/-- The functions of several aggregates, each with the type of its inputs. -/
abbrev AggregateInputs := List (AggregateFunction × DataType)

namespace AggregateInputs

/-- The first aggregate whose function does not accept its inputs. -/
def refused? (specs : AggregateInputs) : Option (AggregateFunction × DataType) :=
  specs.find? fun p => !p.1.accepts p.2

def Follow (specs : AggregateInputs) (as : List Accumulator) : Prop :=
  List.Forall₂ (fun p a => Follows p.2 p.1 a) specs as

def Hold (specs : AggregateInputs) (as : List Accumulator) : Prop :=
  List.Forall₂ (fun p a => Holds p.2 p.1 a) specs as

variable {specs : AggregateInputs} {as bs : List Accumulator} {vs : List Value}

theorem follow_start (specs : AggregateInputs) : specs.Follow (specs.map (·.1.start)) := by
  unfold Follow
  rw [List.forall₂_map_right_iff, List.forall₂_same]
  exact fun p _ => .inl rfl

theorem Hold.follow (h : specs.Hold as) : specs.Follow as :=
  List.Forall₂.imp (fun _ _ => .inr) h

end AggregateInputs

theorem feedAll_cons (a : Accumulator) (v : Value) (as : List Accumulator) (vs : List Value) :
    feedAll (a :: as) (v :: vs) = do return (← a.feed v) :: (← feedAll as vs) := by
  unfold feedAll
  rw [List.zip_cons_cons, List.mapM_cons]

section FeedAll
variable {specs : AggregateInputs} {as bs : List Accumulator} {vs : List Value}

theorem feedAll_of_refused?_eq_none (h : specs.Follow as) (hv : vs.map Value.type = specs.map Prod.snd)
    (hr : specs.refused? = none) : ∃ bs, feedAll as vs = .ok bs ∧ specs.Hold bs := by
  induction h generalizing vs with
  | nil =>
    cases vs with
    | nil => exact ⟨[], rfl, .nil⟩
    | cons v vs => cases hv
  | @cons p a specs as ha _ ih =>
    cases vs with
    | nil => cases hv
    | cons v vs =>
      obtain ⟨fn, t⟩ := p
      rw [List.map_cons, List.map_cons, List.cons.injEq] at hv
      obtain ⟨rfl, hvs⟩ := hv
      unfold AggregateInputs.refused? at hr
      rw [List.find?_cons] at hr
      split at hr
      · cases hr
      · rename_i hacc
        obtain ⟨b, hb, hbh⟩ := exists_feed ha (by simpa using hacc)
        obtain ⟨bs, hbs, hbsh⟩ := ih hvs hr
        exact ⟨b :: bs, by rw [feedAll_cons, hb, ok_bind, hbs, ok_bind, pure_eq_ok], .cons hbh hbsh⟩

theorem feedAll_of_refused?_eq_some {fn : AggregateFunction} {t : DataType} (h : specs.Follow as)
    (hv : vs.map Value.type = specs.map Prod.snd) (hr : specs.refused? = some (fn, t)) :
    feedAll as vs = .error (.unsupported (.aggregateInput fn t)) := by
  induction h generalizing vs with
  | nil => cases hr
  | @cons p a specs as ha _ ih =>
    cases vs with
    | nil => cases hv
    | cons v vs =>
      obtain ⟨fn', t'⟩ := p
      rw [List.map_cons, List.map_cons, List.cons.injEq] at hv
      obtain ⟨rfl, hvs⟩ := hv
      unfold AggregateInputs.refused? at hr
      rw [List.find?_cons] at hr
      split at hr
      · rename_i hacc
        cases hr
        rw [feedAll_cons, feed_of_accepts_eq_false ha (by simpa using hacc), error_bind]
      · rename_i hacc
        obtain ⟨b, hb, -⟩ := exists_feed ha (by simpa using hacc)
        rw [feedAll_cons, hb, ok_bind, ih hvs hr, error_bind]

theorem exists_mapM_finish (h : specs.Hold as) :
    ∃ vs, as.mapM finish = .ok vs ∧ vs.map Value.type = specs.map fun p => p.1.resultType p.2 := by
  induction h with
  | nil => exact ⟨[], rfl, rfl⟩
  | cons ha _ ih =>
    obtain ⟨v, hv, hvt⟩ := exists_finish ha
    obtain ⟨vs, hvs, hvst⟩ := ih
    refine ⟨v :: vs, by rw [List.mapM_cons, hv, ok_bind, hvs, ok_bind, pure_eq_ok], ?_⟩
    rw [List.map_cons, List.map_cons, hvt, hvst]

/-! ## State by state -/

theorem foldlM_feedAll_cons_eq_ok_iff {column : List Value} {rows : List (List Value)} {a : Accumulator}
    (hl : column.length = rows.length) :
    (List.zipWith List.cons column rows).foldlM feedAll (a :: as) = .ok bs ↔
      ∃ c cs, column.foldlM feed a = .ok c ∧ rows.foldlM feedAll as = .ok cs ∧ bs = c :: cs := by
  induction column generalizing rows a as with
  | nil =>
    cases rows with
    | nil => simp [eq_comm]
    | cons row rows => cases hl
  | cons v column ih =>
    cases rows with
    | nil => cases hl
    | cons row rows =>
      rw [List.zipWith_cons_cons, List.foldlM_cons, feedAll_cons, List.foldlM_cons, List.foldlM_cons]
      cases a.feed v with
      | error e => simp
      | ok c =>
        cases feedAll as row with
        | error e => simp
        | ok cs =>
          rw [ok_bind, ok_bind, pure_eq_ok, ok_bind, ok_bind, ok_bind]
          exact ih (Nat.succ.inj hl)

/-- Feeding rows of inputs to states side by side feeds each state its column. -/
theorem foldlM_feedAll_rowsOf_eq_ok_iff {n : Nat} {columns : List (List Value)} (hl : as.length = columns.length)
    (hn : ∀ c ∈ columns, c.length = n) :
    (rowsOf n columns).foldlM feedAll as = .ok bs ↔
      (as.zip columns).mapM (fun p => p.2.foldlM feed p.1) = .ok bs := by
  induction columns generalizing as bs with
  | nil =>
    have has : as = [] := List.length_eq_zero_iff.1 hl
    subst has
    have hfix : ∀ m, (List.replicate m ([] : List Value)).foldlM feedAll [] = .ok [] := by
      intro m
      induction m with
      | zero => rfl
      | succ m ih => rw [List.replicate_succ, List.foldlM_cons]; exact ih
    rw [rowsOf, hfix]
    rfl
  | cons c cs ih =>
    rw [List.forall_mem_cons] at hn
    cases as with
    | nil => cases hl
    | cons a as =>
      have hc : c.length = (rowsOf n cs).length := by rw [hn.1, length_rowsOf hn.2]
      rw [rowsOf, foldlM_feedAll_cons_eq_ok_iff hc, List.zip_cons_cons, List.mapM_cons, bind_eq_ok_iff]
      constructor
      · intro h
        obtain ⟨d, ds, hd, hds, rfl⟩ := h
        refine ⟨d, hd, ?_⟩
        rw [(ih (Nat.succ.inj hl) hn.2).1 hds, ok_bind, pure_eq_ok]
      · intro h
        obtain ⟨d, hd, h⟩ := h
        obtain ⟨ds, hds, h⟩ := bind_eq_ok_iff.1 h
        exact ⟨d, ds, hd, (ih (Nat.succ.inj hl) hn.2).2 hds, (Except.ok.inj h).symm⟩

end FeedAll

end ColumnarQuery
