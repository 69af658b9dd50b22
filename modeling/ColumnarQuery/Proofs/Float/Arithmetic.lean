import ColumnarQuery.Float.Arithmetic
import ColumnarQuery.Proofs.Float.Rounding

/-!
# The rules of floating point arithmetic

`FloatBits.IsSum`, `IsDifference`, `IsProduct`, `IsQuotient` and `IsRemainder` are the answers on numbers: the exact one
rounded once, or what follows from the infinities and zeros among them. Each determines its answer, and the operations
follow them (`FloatBits.propagates_add`, …).
-/

namespace ColumnarQuery.FloatBits

variable {w : FloatWidth} {x y z z' : FloatBits w}

/-! ## The rules -/

/-- The first operand that is a NaN is the answer, in its quiet form. What becomes of two numbers is left to a rule. -/
inductive Propagates (rule : FloatBits w → FloatBits w → FloatBits w → Prop) (x y : FloatBits w) : FloatBits w → Prop
  | left (hx : x.isNaN = true) : Propagates rule x y x.quiet
  | right (hx : x.isNaN = false) (hy : y.isNaN = true) : Propagates rule x y y.quiet
  | numbers (hx : x.isNaN = false) (hy : y.isNaN = false) {z : FloatBits w} (h : rule x y z) : Propagates rule x y z

def IsInfinity (negative : Bool) (z : FloatBits w) : Prop :=
  z.isInfinite = true ∧ z.isNegative = negative

/-- A zero sum is negative only if both numbers are. -/
inductive IsSum (x y : FloatBits w) : FloatBits w → Prop
  | finite (hx : x.isInfinite = false) (hy : y.isInfinite = false) {z : FloatBits w}
    (h : Rounds (x.isNegative && y.isNegative) (x.toRat + y.toRat) z) : IsSum x y z
  | left (hx : x.isInfinite = true) (h : y.isInfinite = true → y.isNegative = x.isNegative) : IsSum x y x
  | right (hx : x.isInfinite = false) (hy : y.isInfinite = true) : IsSum x y y
  | opposite (hx : x.isInfinite = true) (hy : y.isInfinite = true) (h : y.isNegative ≠ x.isNegative) :
    IsSum x y (invalid w)

structure IsOpposite (x y : FloatBits w) : Prop where
  isNegative_eq : y.isNegative = !x.isNegative
  magnitude_eq : y.magnitude = x.magnitude

def IsDifference (x y z : FloatBits w) : Prop :=
  ∃ y', y.IsOpposite y' ∧ IsSum x y' z

inductive IsProduct (x y : FloatBits w) : FloatBits w → Prop
  | finite (hx : x.isInfinite = false) (hy : y.isInfinite = false) {z : FloatBits w}
    (h : Rounds (x.isNegative != y.isNegative) (x.toRat * y.toRat) z) : IsProduct x y z
  | infinite (h : x.isInfinite = true ∨ y.isInfinite = true) (hx : x.isZero = false) (hy : y.isZero = false)
    {z : FloatBits w} (hz : IsInfinity (x.isNegative != y.isNegative) z) : IsProduct x y z
  | undefined (h : x.isInfinite = true ∨ y.isInfinite = true) (hz : x.isZero = true ∨ y.isZero = true) :
    IsProduct x y (invalid w)

inductive IsQuotient (x y : FloatBits w) : FloatBits w → Prop
  | finite (hx : x.isInfinite = false) (hy : y.isInfinite = false) (hz : y.isZero = false) {z : FloatBits w}
    (h : Rounds (x.isNegative != y.isNegative) (x.toRat / y.toRat) z) : IsQuotient x y z
  | infinite (hx : x.isInfinite = true) (hy : y.isInfinite = false) {z : FloatBits w}
    (hz : IsInfinity (x.isNegative != y.isNegative) z) : IsQuotient x y z
  | byInfinity (hx : x.isInfinite = false) (hy : y.isInfinite = true) {z : FloatBits w} (hz : z.isZero = true)
    (hs : z.isNegative = (x.isNegative != y.isNegative)) : IsQuotient x y z
  | byZero (hx : x.isInfinite = false) (hn : x.isZero = false) (hy : y.isZero = true) {z : FloatBits w}
    (hz : IsInfinity (x.isNegative != y.isNegative) z) : IsQuotient x y z
  | undefined (h : x.isInfinite = true ∧ y.isInfinite = true ∨ x.isZero = true ∧ y.isZero = true) :
    IsQuotient x y (invalid w)

/-- What a quotient that is cut toward zero leaves. -/
def remainder (a b : ℚ) : ℚ :=
  a - (a / b).num.tdiv (a / b).den * b

inductive IsRemainder (x y : FloatBits w) : FloatBits w → Prop
  | finite (hx : x.isInfinite = false) (hy : y.isInfinite = false) (hz : y.isZero = false) {z : FloatBits w}
    (h : Rounds x.isNegative (remainder x.toRat y.toRat) z) : IsRemainder x y z
  | byInfinity (hx : x.isInfinite = false) (hy : y.isInfinite = true) : IsRemainder x y x
  | undefined (h : x.isInfinite = true ∨ y.isZero = true) : IsRemainder x y (invalid w)

/-! ## Classes -/

theorem isZero_iff : x.isZero = true ↔ x.magnitude = 0 := decide_eq_true_iff

theorem isInfinite_eq_false_of_isZero (h : x.isZero = true) : x.isInfinite = false := by
  rw [isInfinite, isZero_iff.1 h]
  cases w <;> decide

theorem isInfinity_infinite (w : FloatWidth) (negative : Bool) : IsInfinity negative (infinite w negative) := by
  refine ⟨?_, isNegative_ofMagnitude negative (infinity_lt w)⟩
  rw [isInfinite_iff, infinite, magnitude_ofMagnitude negative (infinity_lt w)]

theorem IsInfinity.unique {negative : Bool} (hz : IsInfinity negative z) (hz' : IsInfinity negative z') : z = z' :=
  eq_iff.2 ⟨hz.2.trans hz'.2.symm, (isInfinite_iff.1 hz.1).trans (isInfinite_iff.1 hz'.1).symm⟩

theorem isOpposite_neg (x : FloatBits w) : x.IsOpposite x.neg where
  isNegative_eq := isNegative_ofMagnitude _ (magnitude_lt x)
  magnitude_eq := magnitude_ofMagnitude _ (magnitude_lt x)

theorem IsOpposite.unique (hz : x.IsOpposite z) (hz' : x.IsOpposite z') : z = z' :=
  eq_iff.2 ⟨hz.isNegative_eq.trans hz'.isNegative_eq.symm, hz.magnitude_eq.trans hz'.magnitude_eq.symm⟩

/-! ## Each operation keeps its rule -/

theorem propagates_firstNaN? {rule : FloatBits w → FloatBits w → FloatBits w → Prop} (x y : FloatBits w)
    (h : rule x y z) : Propagates rule x y ((firstNaN? x y).getD z) := by
  unfold firstNaN?
  cases hx : x.isNaN with
  | true => exact .left hx
  | false =>
    cases hy : y.isNaN with
    | true => exact .right hx hy
    | false => exact .numbers hx hy h

theorem isSum_addNumbers (x y : FloatBits w) : IsSum x y (addNumbers x y) := by
  unfold addNumbers
  cases hx : x.isInfinite with
  | true =>
    cases hy : y.isInfinite with
    | true =>
      by_cases hs : y.isNegative = x.isNegative
      · simpa [hs] using IsSum.left hx fun _ => hs
      · simpa [Ne.symm hs] using IsSum.opposite hx hy hs
    | false => exact .left hx fun h => by rw [hy] at h; cases h
  | false =>
    cases hy : y.isInfinite with
    | true => exact .right hx hy
    | false => exact .finite hx hy (rounds_ofRat w _ _)

theorem propagates_add (x y : FloatBits w) : Propagates IsSum x y (x.add y) :=
  propagates_firstNaN? x y (isSum_addNumbers x y)

theorem propagates_sub (x y : FloatBits w) : Propagates IsDifference x y (x.sub y) :=
  propagates_firstNaN? x y ⟨_, isOpposite_neg y, isSum_addNumbers x y.neg⟩

theorem propagates_mul (x y : FloatBits w) : Propagates IsProduct x y (x.mul y) := by
  refine propagates_firstNaN? x y ?_
  split
  · rename_i h
    rw [Bool.or_eq_true] at h
    split
    · rename_i hz
      rw [Bool.or_eq_true] at hz
      exact .undefined h hz
    · rename_i hz
      rw [Bool.or_eq_true, not_or, Bool.not_eq_true, Bool.not_eq_true] at hz
      exact .infinite h hz.1 hz.2 (isInfinity_infinite w _)
  · rename_i h
    rw [Bool.or_eq_true, not_or, Bool.not_eq_true, Bool.not_eq_true] at h
    exact .finite h.1 h.2 (rounds_ofRat w _ _)

theorem propagates_div (x y : FloatBits w) : Propagates IsQuotient x y (x.div y) := by
  refine propagates_firstNaN? x y ?_
  cases hx : x.isInfinite with
  | true =>
    cases hy : y.isInfinite with
    | true => exact .undefined (.inl ⟨hx, hy⟩)
    | false => exact .infinite hx hy (isInfinity_infinite w _)
  | false =>
    cases hy : y.isInfinite with
    | true =>
      have hpos : 0 < 2 ^ (w.bits - 1) := Nat.two_pow_pos _
      refine .byInfinity hx hy ?_ (isNegative_ofMagnitude _ hpos)
      exact decide_eq_true (magnitude_ofMagnitude _ hpos)
    | false =>
      cases hz : y.isZero with
      | true =>
        cases hn : x.isZero with
        | true => exact .undefined (.inr ⟨hn, hz⟩)
        | false => exact .byZero hx hn hz (isInfinity_infinite w _)
      | false => exact .finite hx hy hz (rounds_ofRat w _ _)

/-! ## Remainders -/

theorem tdiv_num_den_of_nonneg {q : ℚ} (h : 0 ≤ q) : q.num.tdiv q.den = q.floor := by
  rw [Rat.floor_def, Int.tdiv_eq_ediv_of_nonneg (Rat.num_nonneg.2 h)]

theorem tdiv_num_den_neg (q : ℚ) : (-q).num.tdiv (-q).den = -q.num.tdiv q.den := by
  rw [Rat.neg_num, Rat.neg_den, Int.neg_tdiv]

theorem remainder_neg_left (a b : ℚ) : remainder (-a) b = -remainder a b := by
  rw [remainder, remainder, neg_div, tdiv_num_den_neg]
  push_cast
  ring

theorem remainder_neg_right (a b : ℚ) : remainder a (-b) = remainder a b := by
  rw [remainder, remainder, div_neg, tdiv_num_den_neg]
  push_cast
  ring

theorem remainder_of_nonneg {a b : ℚ} (ha : 0 ≤ a) (hb : 0 < b) :
    remainder a b = a - (a / b).floor * b ∧ 0 ≤ remainder a b := by
  have heq : remainder a b = a - (a / b).floor * b := by
    rw [remainder, tdiv_num_den_of_nonneg (div_nonneg ha hb.le)]
  refine ⟨heq, ?_⟩
  have hfloor : ((a / b).floor : ℚ) * b ≤ a / b * b := mul_le_mul_of_nonneg_right (Int.floor_le (a / b)) hb.le
  rw [div_mul_cancel₀ _ hb.ne'] at hfloor
  rw [heq]
  linarith

theorem abs_pos_of_isZero (h : y.isZero = false) : 0 < y.abs := by
  rw [abs, ← absOfMagnitude_zero w]
  exact strictMono_absOfMagnitude w (Nat.pos_of_ne_zero (of_decide_eq_false h))

theorem remainder_toRat (x y : FloatBits w) :
    remainder x.toRat y.toRat = if x.isNegative then -remainder x.abs y.abs else remainder x.abs y.abs := by
  have hright : remainder x.toRat y.toRat = remainder x.toRat y.abs := by
    rw [toRat.eq_def y]
    split
    · rw [remainder_neg_right]
    · rfl
  rw [hright, toRat]
  split
  · rw [remainder_neg_left]
  · rfl

theorem propagates_rem (x y : FloatBits w) : Propagates IsRemainder x y (x.rem y) := by
  refine propagates_firstNaN? x y ?_
  cases hx : x.isInfinite with
  | true => exact .undefined (.inl hx)
  | false =>
    cases hz : y.isZero with
    | true => exact .undefined (.inr hz)
    | false =>
      cases hy : y.isInfinite with
      | true => exact .byInfinity hx hy
      | false =>
        have habs : 0 ≤ x.abs := absOfMagnitude_nonneg w x.magnitude
        obtain ⟨heq, hnonneg⟩ := remainder_of_nonneg habs (abs_pos_of_isZero hz)
        have hrounds := rounds_ofMagnitude (w := w) (negative_eq_signed x.isNegative hnonneg)
        rw [abs_signed x.isNegative hnonneg, ← remainder_toRat, heq] at hrounds
        exact .finite hx hy hz hrounds

/-! ## One answer -/

theorem Propagates.unique {rule : FloatBits w → FloatBits w → FloatBits w → Prop}
    (hrule : ∀ {z z'}, rule x y z → rule x y z' → z = z') (h : Propagates rule x y z) (h' : Propagates rule x y z') :
    z = z' := by
  cases h with
  | left hx => cases h' <;> simp_all
  | right hx hy => cases h' <;> simp_all
  | numbers hx hy h =>
    cases h' with
    | numbers _ _ h' => exact hrule h h'
    | _ => simp_all

theorem IsSum.unique (h : IsSum x y z) (h' : IsSum x y z') : z = z' := by
  cases h with
  | finite hx hy h =>
    cases h' with
    | finite _ _ h' => exact h.unique h'
    | _ => simp_all
  | _ => cases h' <;> simp_all

theorem IsDifference.unique (h : IsDifference x y z) (h' : IsDifference x y z') : z = z' := by
  obtain ⟨_, hy, h⟩ := h
  obtain ⟨_, hy', h'⟩ := h'
  cases hy.unique hy'
  exact h.unique h'

theorem IsProduct.unique (h : IsProduct x y z) (h' : IsProduct x y z') : z = z' := by
  cases h with
  | finite hx hy h =>
    cases h' with
    | finite _ _ h' => exact h.unique h'
    | _ => simp_all
  | infinite h hx hy hz =>
    cases h' with
    | infinite _ _ _ hz' => exact hz.unique hz'
    | _ => simp_all
  | undefined h hz => cases h' <;> simp_all

theorem IsQuotient.unique (h : IsQuotient x y z) (h' : IsQuotient x y z') : z = z' := by
  cases h with
  | finite hx hy hz h =>
    cases h' with
    | finite _ _ _ h' => exact h.unique h'
    | _ => simp_all
  | infinite hx hy hz =>
    cases h' with
    | infinite _ _ hz' => exact hz.unique hz'
    | _ => simp_all [isInfinite_eq_false_of_isZero]
  | byInfinity hx hy hz hs =>
    cases h' with
    | byInfinity _ _ hz' hs' => exact eq_iff.2 ⟨hs.trans hs'.symm, (isZero_iff.1 hz).trans (isZero_iff.1 hz').symm⟩
    | _ => simp_all [isInfinite_eq_false_of_isZero]
  | byZero hx hn hy hz =>
    cases h' with
    | byZero _ _ _ hz' => exact hz.unique hz'
    | _ => simp_all [isInfinite_eq_false_of_isZero]
  | undefined h => cases h' <;> simp_all [isInfinite_eq_false_of_isZero]

theorem IsRemainder.unique (h : IsRemainder x y z) (h' : IsRemainder x y z') : z = z' := by
  cases h with
  | finite hx hy hz h =>
    cases h' with
    | finite _ _ _ h' => exact h.unique h'
    | _ => simp_all
  | byInfinity hx hy => cases h' <;> simp_all [isInfinite_eq_false_of_isZero]
  | undefined h => cases h' <;> simp_all [isInfinite_eq_false_of_isZero]

end ColumnarQuery.FloatBits
