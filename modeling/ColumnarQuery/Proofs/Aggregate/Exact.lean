import ColumnarQuery.Proofs.Aggregate.GroupRows
import ColumnarQuery.Proofs.Value.Order
import Mathlib.Data.List.Perm.Basic

/-!
# Exact aggregates

`AggregateFunction.isExact` tells the functions whose answer on values of a type does not depend on their order. On integers
they fold an operation that commutes (`AggregateFunction.foldlM_feed_running`), and so rows in another order make the same
groups in another order (`groupRows_perm`).
-/

namespace ColumnarQuery

namespace AggregateFunction

/-- The answer on values of a type does not depend on their order. Numbers in floating point are rounded one by one, and
so is the sum of an average. -/
def isExact : AggregateFunction → DataType → Bool
  | count, _ => true
  | avg, _ => false
  | sum, t | min, t | max, t => t.isInteger

/-! ## Integers -/

section Integers
variable {fn : AggregateFunction} {w : IntWidth}

/-- The sum of two integers, or the less or greater of them, of which the first is kept where they are equal. -/
def combine {n : Nat} : AggregateFunction → BitVec n → BitVec n → BitVec n
  | min, a, b => if b.toInt < a.toInt then b else a
  | max, a, b => if a.toInt < b.toInt then b else a
  | _, a, b => a + b

theorem toInt_combine_min {n : Nat} (a b : BitVec n) : (min.combine a b).toInt = Min.min a.toInt b.toInt := by
  rw [combine]
  split <;> omega

theorem toInt_combine_max {n : Nat} (a b : BitVec n) : (max.combine a b).toInt = Max.max a.toInt b.toInt := by
  rw [combine]
  split <;> omega

theorem combine_comm {n : Nat} (fn : AggregateFunction) (a b : BitVec n) : fn.combine a b = fn.combine b a := by
  cases fn with
  | min =>
    apply BitVec.eq_of_toInt_eq
    rw [toInt_combine_min, toInt_combine_min]
    omega
  | max =>
    apply BitVec.eq_of_toInt_eq
    rw [toInt_combine_max, toInt_combine_max]
    omega
  | _ => exact BitVec.add_comm a b

theorem combine_right_comm {n : Nat} (fn : AggregateFunction) (a b c : BitVec n) :
    fn.combine (fn.combine a b) c = fn.combine (fn.combine a c) b := by
  cases fn with
  | min =>
    apply BitVec.eq_of_toInt_eq
    simp only [toInt_combine_min]
    omega
  | max =>
    apply BitVec.eq_of_toInt_eq
    simp only [toInt_combine_max]
    omega
  | _ =>
    show a + b + c = a + c + b
    rw [BitVec.add_assoc, BitVec.add_comm b, ← BitVec.add_assoc]

def absorb {n : Nat} (fn : AggregateFunction) (answer : Option (BitVec n)) (a : BitVec n) : Option (BitVec n) :=
  some (answer.elim a (fn.combine · a))

instance {n : Nat} (fn : AggregateFunction) : RightCommutative (fn.absorb (n := n)) where
  right_comm answer a b := by
    cases answer with
    | none => exact congrArg some (combine_comm fn a b)
    | some c => exact congrArg some (combine_right_comm fn c a b)

def running : AggregateFunction → Option Value → Accumulator
  | min, o => .min o
  | max, o => .max o
  | _, o => .sum o

theorem addTo_int (a b : BitVec w.bits) :
    Accumulator.addTo (some (.int w a)) (.int w b) = .ok (.int w (sum.combine a b)) := by
  simp only [Accumulator.addTo, Value.type, Accumulator.checkSameType, if_true, ok_bind, Value.calculate_int]
  rfl

theorem extreme_int (f : AggregateFunction) (wanted : Ordering) (a b : BitVec w.bits) :
    Accumulator.extreme f wanted (some (.int w a)) (.int w b) =
      .ok (.int w (if compareInts b.toInt a.toInt = wanted then b else a)) := by
  rw [Accumulator.extreme, Accumulator.checkNumeric_of_isNumeric rfl, ok_bind]
  simp only [Accumulator.checkSameType, Value.compare, Value.type, if_true, ok_bind, Option.some.injEq, pure_eq_ok]
  split <;> rfl

theorem feed_running (o : Option (BitVec w.bits)) (a : BitVec w.bits) :
    (fn.running (o.map (.int w))).feed (.int w a) = .ok (fn.running ((fn.absorb o a).map (.int w))) := by
  cases o with
  | none => cases fn <;> rfl
  | some b =>
    unfold Accumulator.feed
    cases fn with
    | min =>
      simp only [running, Option.map_some, Accumulator.accumulate, extreme_int, compareInts_eq_lt_iff]
      rfl
    | max =>
      simp only [running, Option.map_some, Accumulator.accumulate, extreme_int, compareInts_eq_gt_iff]
      rfl
    | _ =>
      simp only [running, Option.map_some, Accumulator.accumulate, addTo_int]
      rfl

theorem foldlM_feed_running (fn : AggregateFunction) (as : List (BitVec w.bits)) (o : Option (BitVec w.bits)) :
    (as.map (Value.int w)).foldlM Accumulator.feed (fn.running (o.map (.int w))) =
      .ok (fn.running ((as.foldl fn.absorb o).map (.int w))) := by
  induction as generalizing o with
  | nil => rfl
  | cons a as ih => rw [List.map_cons, List.foldlM_cons, feed_running, ok_bind, ih, List.foldl_cons]

theorem exists_ints {vs : List Value} (h : ∀ v ∈ vs, v.type = .int w) :
    ∃ as : List (BitVec w.bits), vs = as.map (Value.int w) := by
  induction vs with
  | nil => exact ⟨[], rfl⟩
  | cons v vs ih =>
    rw [List.forall_mem_cons] at h
    obtain ⟨as, rfl⟩ := ih h.2
    cases v with
    | int w' a =>
      obtain rfl : w' = w := DataType.int.inj h.1
      exact ⟨a :: as, rfl⟩
    | _ => cases h.1

end Integers

/-! ## Values in another order -/

theorem foldlM_feed_count (vs : List Value) (n : Nat) :
    vs.foldlM Accumulator.feed (.count n) = .ok (.count (n + vs.length)) := by
  induction vs generalizing n with
  | nil => rfl
  | cons v vs ih =>
    rw [List.foldlM_cons, show Accumulator.feed (.count n) v = .ok (.count (n + 1)) from rfl, ok_bind, ih,
      List.length_cons, Nat.add_right_comm, Nat.add_assoc]

/-- A function other than counting is exact on integers only, and starts without a running answer. -/
theorem start_of_isExact {fn : AggregateFunction} {t : DataType} (he : fn.isExact t = true) (hc : fn ≠ .count) :
    fn.start = fn.running none ∧ ∃ w, t = .int w := by
  cases fn with
  | count => exact absurd rfl hc
  | avg => cases he
  | _ =>
    cases t with
    | int w => exact ⟨rfl, w, rfl⟩
    | _ => cases he

/-- The order of the values does not matter to an exact function. -/
theorem ofValues_eq_of_perm {fn : AggregateFunction} {t : DataType} {vs ws : List Value} (he : fn.isExact t = true)
    (ht : ∀ v ∈ vs, v.type = t) (h : vs.Perm ws) : fn.ofValues vs = fn.ofValues ws := by
  by_cases hc : fn = .count
  · subst hc
    rw [ofValues, ofValues, start, foldlM_feed_count, foldlM_feed_count, h.length_eq]
  · obtain ⟨hstart, w, rfl⟩ := start_of_isExact he hc
    obtain ⟨as, rfl⟩ := exists_ints ht
    obtain ⟨bs, rfl⟩ := exists_ints fun v hv => ht v (h.mem_iff.2 hv)
    have hperm : as.Perm bs := (List.map_perm_map_iff fun _ _ hab => by simpa using hab).1 h
    have has := foldlM_feed_running fn as none
    have hbs := foldlM_feed_running fn bs none
    rw [Option.map_none, ← hstart] at has hbs
    rw [ofValues, ofValues, has, hbs, hperm.foldl_eq]

end AggregateFunction

/-! ## Rows in another order -/

theorem eraseDups_perm {keys keys' : List Row} (h : keys.Perm keys') : keys.eraseDups.Perm keys'.eraseDups := by
  rw [List.perm_ext_iff_of_nodup (Groups.nodup_eraseDups keys) (Groups.nodup_eraseDups keys')]
  intro k
  rw [List.mem_eraseDups, List.mem_eraseDups, h.mem_iff]

theorem withKey_perm {pairs pairs' : List (Row × Row)} (h : pairs.Perm pairs') (k : Row) :
    (withKey k pairs).Perm (withKey k pairs') :=
  (h.filter _).map _

theorem mem_of_mem_withKey {k row : Row} {keys rows : List Row} (h : row ∈ withKey k (keys.zip rows)) : row ∈ rows := by
  obtain ⟨p, hp, rfl⟩ := List.mem_map.1 h
  exact (List.of_mem_zip (List.mem_of_mem_filter hp)).2

section GroupRows
variable {key : Row → Except Error Row} {aggregates : List (AggregateFunction × (Row → Except Error Value))}
  {rows rows' out : List Row}

/-- Each function is exact on the type of its inputs. -/
def ExactOn (aggregates : List (AggregateFunction × (Row → Except Error Value))) (rows : List Row) : Prop :=
  ∀ a ∈ aggregates, ∃ t, a.1.isExact t = true ∧ ∀ row ∈ rows, ∀ v, a.2 row = .ok v → v.type = t

theorem ExactOn.mono {group : List Row} (he : ExactOn aggregates rows) (h : ∀ row ∈ group, row ∈ rows) :
    ExactOn aggregates group := by
  intro a ha
  obtain ⟨t, hexact, ht⟩ := he a ha
  exact ⟨t, hexact, fun row hrow => ht row (h row hrow)⟩

theorem answers_of_perm {answers : Row} (he : ExactOn aggregates rows) (h : rows.Perm rows')
    (ha : (aggregates.mapM fun a => do a.1.answer (← rows.mapM a.2)) = .ok answers) :
    (aggregates.mapM fun a => do a.1.answer (← rows'.mapM a.2)) = .ok answers := by
  refine mapM_eq_ok_imp (fun a hmem v hv => ?_) ha
  obtain ⟨t, hexact, ht⟩ := he a hmem
  obtain ⟨vs, hvs, hv⟩ := bind_eq_ok_iff.1 hv
  obtain ⟨ws, hws, hperm⟩ := exists_mapM_perm h hvs
  have htypes : ∀ v ∈ vs, v.type = t := by
    intro v hv
    obtain ⟨row, hrow, hv⟩ := exists_of_mem_mapM hvs hv
    exact ht row hrow v hv
  rw [← AggregateFunction.ofValues_eq_answer] at hv
  rw [hws, ok_bind, ← AggregateFunction.ofValues_eq_answer, ← AggregateFunction.ofValues_eq_of_perm hexact htypes hperm, hv]

/-- Rows in another order make the same groups: their keys may first occur in another order, and so may the rows of
each. -/
theorem groupRows_perm (he : ExactOn aggregates rows) (h : rows.Perm rows')
    (hout : groupRows key aggregates rows = .ok out) :
    ∃ out', groupRows key aggregates rows' = .ok out' ∧ out.Perm out' := by
  obtain ⟨keys, hkeys, hout⟩ := bind_eq_ok_iff.1 hout
  obtain ⟨keys', hkeys', hpairs⟩ := exists_mapM_zip_perm h hkeys
  have hperm : keys.Perm keys' := by
    obtain ⟨ks, hks, hperm⟩ := exists_mapM_perm h hkeys
    rw [hkeys', Except.ok.injEq] at hks
    rw [hks]
    exact hperm
  -- First another group under each key, which has the same answers; then the keys in another order.
  have hsame : (keys.eraseDups.mapM fun k => (do
      let group := withKey k (keys'.zip rows')
      return k ++ (← aggregates.mapM fun a => do a.1.answer (← group.mapM a.2)) : Except Error Row)) = .ok out := by
    refine mapM_eq_ok_imp (fun k _ row hrow => ?_) hout
    obtain ⟨answers, hanswers, hrow⟩ := bind_eq_ok_iff.1 hrow
    have hgroup := answers_of_perm (he.mono fun _ => mem_of_mem_withKey) (withKey_perm hpairs k) hanswers
    simp only [hgroup, ok_bind]
    exact hrow
  obtain ⟨out', hout', hrows⟩ := exists_mapM_perm (eraseDups_perm hperm) hsame
  exact ⟨out', by rw [groupRows, hkeys', ok_bind, hout'], hrows⟩

end GroupRows

end ColumnarQuery
