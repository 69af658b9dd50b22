import Mathlib.Algebra.Order.Field.Power
import Mathlib.Algebra.Order.Ring.WithTop
import Mathlib.Data.Rat.Floor
import Mathlib.Tactic.Linarith
import Mathlib.Tactic.Positivity
import Mathlib.Tactic.Ring
import ColumnarQuery.Float.Basic

/-!
# The places of floating point numbers

`FloatBits.place` is where a number stands among the rational numbers and the two infinities, and two numbers are compared by
their places (`FloatBits.compare_eq_some_iff`). The value of a number grows with its magnitude bits
(`FloatBits.strictMono_absOfMagnitude`).
-/

namespace ColumnarQuery.FloatBits

variable {w : FloatWidth} {x y : FloatBits w} {m n : Nat}

/-! ## Sign and magnitude -/

theorem magnitude_lt (x : FloatBits w) : x.magnitude < 2 ^ (w.bits - 1) := by
  rw [magnitude, Nat.one_shiftLeft]
  exact Nat.mod_lt _ (Nat.two_pow_pos _)

theorem two_pow_bits (w : FloatWidth) : 2 ^ w.bits = 2 * 2 ^ (w.bits - 1) := by
  cases w <;> rfl

theorem infinity_lt (w : FloatWidth) : w.infinity < 2 ^ (w.bits - 1) := by
  cases w <;> decide

theorem toNat_bits (x : FloatBits w) : x.bits.toNat = x.isNegative.toNat * 2 ^ (w.bits - 1) + x.magnitude := by
  have hlt := x.bits.isLt
  have hpow := two_pow_bits w
  rw [isNegative, BitVec.msb_eq_decide, magnitude, Nat.one_shiftLeft]
  by_cases h : 2 ^ (w.bits - 1) ≤ x.bits.toNat
  · have hmod : x.bits.toNat % 2 ^ (w.bits - 1) = x.bits.toNat - 2 ^ (w.bits - 1) := by
      rw [Nat.mod_eq_sub_mod h, Nat.mod_eq_of_lt (by omega)]
    rw [hmod, decide_eq_true h, Bool.toNat_true]
    omega
  · rw [Nat.mod_eq_of_lt (by omega), decide_eq_false h, Bool.toNat_false, Nat.zero_mul, Nat.zero_add]

theorem eq_iff : x = y ↔ x.isNegative = y.isNegative ∧ x.magnitude = y.magnitude := by
  constructor
  · rintro rfl
    exact ⟨rfl, rfl⟩
  · rintro ⟨hs, hm⟩
    have hbits : x.bits.toNat = y.bits.toNat := by rw [toNat_bits, toNat_bits, hs, hm]
    cases x
    cases y
    exact congrArg FloatBits.mk (BitVec.toNat_inj.1 hbits)

section OfMagnitude
variable (negative : Bool) (h : m < 2 ^ (w.bits - 1))
include h

theorem toNat_ofMagnitude : (ofMagnitude w negative m).bits.toNat = negative.toNat * 2 ^ (w.bits - 1) + m := by
  have hpow := two_pow_bits w
  rw [ofMagnitude, BitVec.toNat_ofNat, Nat.shiftLeft_eq, Nat.mod_eq_of_lt]
  cases negative
  · rw [Bool.toNat_false]
    omega
  · rw [Bool.toNat_true]
    omega

theorem isNegative_ofMagnitude : (ofMagnitude w negative m).isNegative = negative := by
  rw [isNegative, BitVec.msb_eq_decide, toNat_ofMagnitude negative h]
  cases negative
  · simpa using h
  · simp

theorem magnitude_ofMagnitude : (ofMagnitude w negative m).magnitude = m := by
  rw [magnitude, toNat_ofMagnitude negative h, Nat.one_shiftLeft, Nat.mul_add_mod_self_right, Nat.mod_eq_of_lt h]

end OfMagnitude

/-! ## Absolute values -/

theorem twoPow_eq (e : Int) : twoPow e = (2 : ℚ) ^ e := by
  unfold twoPow
  split
  · rename_i h
    lift e to Nat using h
    simp [Nat.shiftLeft_eq]
  · rename_i h
    obtain ⟨n, rfl⟩ : ∃ n : Nat, e = -n := ⟨(-e).toNat, by omega⟩
    simp [Nat.shiftLeft_eq, Rat.mkRat_eq_div]

/-- The significand of a magnitude, with its hidden bit. -/
def significand (w : FloatWidth) (m : Nat) : Nat :=
  if m / 2 ^ w.fractionBits = 0 then m else 2 ^ w.fractionBits + m % 2 ^ w.fractionBits

/-- The exponent above the least one of the unit in which the significand of a magnitude counts. -/
def scale (w : FloatWidth) (m : Nat) : Nat :=
  m / 2 ^ w.fractionBits - 1

theorem absOfMagnitude_eq (w : FloatWidth) (m : Nat) :
    absOfMagnitude w m = significand w m * 2 ^ (w.minExponent + scale w m) := by
  unfold absOfMagnitude significand scale
  simp only [Nat.shiftRight_eq_div_pow, Nat.one_shiftLeft, twoPow_eq]
  split
  · rename_i h
    rw [h, Nat.mod_eq_of_lt ((Nat.div_eq_zero_iff_lt (Nat.two_pow_pos _)).1 h)]
    simp
  · rfl

theorem absOfMagnitude_zero (w : FloatWidth) : absOfMagnitude w 0 = 0 := by
  rw [absOfMagnitude_eq]
  simp [significand]

theorem significand_lt (w : FloatWidth) (m : Nat) : significand w m < 2 * 2 ^ w.fractionBits := by
  have hpos := Nat.two_pow_pos w.fractionBits
  unfold significand
  split
  · rename_i h
    have hlt := (Nat.div_eq_zero_iff_lt hpos).1 h
    omega
  · have hlt := Nat.mod_lt m hpos
    omega

theorem le_significand (h : scale w m ≠ 0) : 2 ^ w.fractionBits ≤ significand w m := by
  unfold scale at h
  rw [significand, if_neg (by omega)]
  exact Nat.le_add_right _ _

/-- The magnitude of a significand that counts in a given unit. It may have no hidden bit in the least unit only, and may
have carried into the next binade. -/
theorem absOfMagnitude_significand {e s : Nat} (hs : s ≤ 2 * 2 ^ w.fractionBits) (he : e = 0 ∨ 2 ^ w.fractionBits ≤ s) :
    absOfMagnitude w (e * 2 ^ w.fractionBits + s) = s * 2 ^ (w.minExponent + e) := by
  have hpos := Nat.two_pow_pos w.fractionBits
  have hdiv : (e * 2 ^ w.fractionBits + s) / 2 ^ w.fractionBits = e + s / 2 ^ w.fractionBits := by
    rw [Nat.add_comm, Nat.add_mul_div_right _ _ hpos, Nat.add_comm]
  rw [absOfMagnitude_eq, significand, scale, hdiv, Nat.mul_add_mod_self_right]
  rcases Nat.lt_trichotomy s (2 * 2 ^ w.fractionBits) with hlt | rfl | hgt
  · rcases Nat.lt_or_ge s (2 ^ w.fractionBits) with hsub | hnormal
    · obtain rfl : e = 0 := he.resolve_right (by omega)
      simp [Nat.div_eq_of_lt hsub]
    · have hone : s / 2 ^ w.fractionBits = 1 := Nat.div_eq_of_lt_le (by omega) (by omega)
      have hmod : 2 ^ w.fractionBits + s % 2 ^ w.fractionBits = s := by
        have hsplit := Nat.div_add_mod s (2 ^ w.fractionBits)
        rw [hone, Nat.mul_one] at hsplit
        exact hsplit
      rw [hone, if_neg (Nat.succ_ne_zero e), hmod, Nat.add_sub_cancel]
  · have htwo : 2 * 2 ^ w.fractionBits / 2 ^ w.fractionBits = 2 := Nat.mul_div_cancel 2 hpos
    have hunit : w.minExponent + ((e + 2 - 1 : Nat) : Int) = w.minExponent + e + 1 := by omega
    rw [htwo, if_neg (by omega), Nat.mul_mod_left, Nat.add_zero, hunit, zpow_add_one₀ two_ne_zero]
    push_cast
    ring
  · omega

theorem absOfMagnitude_succ (w : FloatWidth) (m : Nat) :
    absOfMagnitude w (m + 1) = absOfMagnitude w m + 2 ^ (w.minExponent + scale w m) := by
  have hlt := significand_lt w m
  have hpos := Nat.two_pow_pos w.fractionBits
  have hsplit := Nat.div_add_mod m (2 ^ w.fractionBits)
  rw [Nat.mul_comm] at hsplit
  -- The next magnitude has the next significand in the same unit, carry included.
  have hm : m = scale w m * 2 ^ w.fractionBits + significand w m := by
    unfold scale significand
    split
    · rename_i h
      rw [h, Nat.zero_sub, Nat.zero_mul, Nat.zero_add]
    · rename_i h
      rw [Nat.sub_mul, Nat.one_mul]
      have hle : 2 ^ w.fractionBits ≤ m / 2 ^ w.fractionBits * 2 ^ w.fractionBits :=
        Nat.le_mul_of_pos_left _ (Nat.pos_of_ne_zero h)
      omega
  have hnext : absOfMagnitude w (scale w m * 2 ^ w.fractionBits + (significand w m + 1)) =
      (significand w m + 1 : Nat) * 2 ^ (w.minExponent + scale w m) := by
    refine absOfMagnitude_significand (by omega) ?_
    by_cases hscale : scale w m = 0
    · exact .inl hscale
    · exact .inr (Nat.le_succ_of_le (le_significand hscale))
  rw [← Nat.add_assoc, ← hm] at hnext
  rw [hnext, absOfMagnitude_eq]
  push_cast
  ring

theorem strictMono_absOfMagnitude (w : FloatWidth) : StrictMono (absOfMagnitude w) := by
  refine strictMono_nat_of_lt_succ fun m => ?_
  rw [absOfMagnitude_succ]
  exact lt_add_of_pos_right _ (by positivity)

theorem absOfMagnitude_nonneg (w : FloatWidth) (m : Nat) : 0 ≤ absOfMagnitude w m := by
  rw [absOfMagnitude_eq]
  positivity

/-! ## Order -/

/-- The place of a number among the rational numbers and the two infinities. -/
def place (x : FloatBits w) : WithBot (WithTop ℚ) :=
  if x.isInfinite then (if x.isNegative then ⊥ else ⊤) else ((x.toRat : WithTop ℚ) : WithBot (WithTop ℚ))

theorem orderKey_lt_iff : x.orderKey < y.orderKey ↔ x.toRat < y.toRat := by
  have hmono := strictMono_absOfMagnitude w
  have hx := absOfMagnitude_nonneg w x.magnitude
  have hy := absOfMagnitude_nonneg w y.magnitude
  have hzero : ∀ {k : Nat}, absOfMagnitude w k = 0 ↔ k = 0 := by
    intro k
    rw [← absOfMagnitude_zero w, hmono.injective.eq_iff]
  unfold orderKey toRat abs
  cases x.isNegative <;> cases y.isNegative
  · simpa using hmono.lt_iff_lt.symm
  · simp only [if_true, Bool.false_eq_true, if_false]
    refine iff_of_false (by omega) (by linarith)
  · simp only [if_true, Bool.false_eq_true, if_false]
    constructor
    · intro h
      by_contra hnot
      have hxm := hzero.1 (by linarith : absOfMagnitude w x.magnitude = 0)
      have hym := hzero.1 (by linarith : absOfMagnitude w y.magnitude = 0)
      omega
    · intro h
      by_contra hnot
      have hxm : x.magnitude = 0 := by omega
      have hym : y.magnitude = 0 := by omega
      rw [hxm, hym, absOfMagnitude_zero] at h
      simp at h
  · simpa using hmono.lt_iff_lt.symm

theorem isInfinite_iff : x.isInfinite = true ↔ x.magnitude = w.infinity := decide_eq_true_iff

theorem isNaN_eq_false_iff : x.isNaN = false ↔ x.magnitude ≤ w.infinity := by
  rw [isNaN, decide_eq_false_iff_not, not_lt]

theorem orderKey_lt_iff_place (hx : x.isNaN = false) (hy : y.isNaN = false) :
    x.orderKey < y.orderKey ↔ x.place < y.place := by
  rw [isNaN_eq_false_iff] at hx hy
  have hpos : 0 < w.infinity := by cases w <;> decide
  have hbelow : ((x.toRat : WithTop ℚ) : WithBot (WithTop ℚ)) < ⊤ := WithBot.coe_lt_coe.2 (WithTop.coe_lt_top _)
  unfold place
  by_cases hxi : x.magnitude = w.infinity
  · rw [if_pos (isInfinite_iff.2 hxi)]
    by_cases hyi : y.magnitude = w.infinity
    · rw [if_pos (isInfinite_iff.2 hyi), orderKey, orderKey, hxi, hyi]
      cases x.isNegative <;> cases y.isNegative <;> simp
      omega
    · rw [if_neg (mt isInfinite_iff.1 hyi), orderKey, orderKey, hxi]
      cases x.isNegative <;> cases y.isNegative <;> simp <;> omega
  · rw [if_neg (mt isInfinite_iff.1 hxi)]
    by_cases hyi : y.magnitude = w.infinity
    · rw [if_pos (isInfinite_iff.2 hyi), orderKey, orderKey, hyi]
      cases x.isNegative <;> cases y.isNegative <;> simp [hbelow] <;> omega
    · rw [if_neg (mt isInfinite_iff.1 hyi), orderKey_lt_iff, WithBot.coe_lt_coe, WithTop.coe_lt_coe]

theorem orderKey_eq_iff_place (hx : x.isNaN = false) (hy : y.isNaN = false) :
    x.orderKey = y.orderKey ↔ x.place = y.place := by
  have hlt := orderKey_lt_iff_place hx hy
  have hgt := orderKey_lt_iff_place hy hx
  constructor
  · intro h
    exact le_antisymm (not_lt.1 fun h' => (hgt.2 h').ne' h) (not_lt.1 fun h' => (hlt.2 h').ne h)
  · intro h
    exact le_antisymm (not_lt.1 fun h' => (hgt.1 h').ne' h) (not_lt.1 fun h' => (hlt.1 h').ne h)

theorem eq_of_place (hx : x.isNaN = false) (hy : y.isNaN = false) (hs : x.isNegative = y.isNegative)
    (h : x.place = y.place) : x = y := by
  have hkey := (orderKey_eq_iff_place hx hy).2 h
  rw [orderKey, orderKey, hs] at hkey
  refine eq_iff.2 ⟨hs, ?_⟩
  split at hkey <;> omega

/-- The order of two numbers is that of their places, and a NaN stands to nothing. -/
theorem compare_eq_some_iff {o : Ordering} :
    x.compare y = some o ↔ (x.isNaN = false ∧ y.isNaN = false) ∧ cmp x.place y.place = o := by
  unfold compare
  cases hx : x.isNaN with
  | true => exact iff_of_false (by simp) fun h => nomatch h.1.1
  | false =>
    cases hy : y.isNaN with
    | true => exact iff_of_false (by simp) fun h => nomatch h.1.2
    | false =>
      have hlt := orderKey_lt_iff_place hx hy
      have heq := orderKey_eq_iff_place hx hy
      rw [if_neg (by simp), and_iff_right ⟨rfl, rfl⟩]
      rcases lt_trichotomy x.place y.place with h | h | h
      · rw [if_pos (hlt.2 h), (cmp_eq_lt_iff _ _).2 h, Option.some.injEq]
      · rw [if_neg (mt hlt.1 h.not_lt), if_pos (heq.2 h), (cmp_eq_eq_iff _ _).2 h, Option.some.injEq]
      · rw [if_neg (mt hlt.1 h.not_gt), if_neg (mt heq.1 h.ne'), (cmp_eq_gt_iff _ _).2 h, Option.some.injEq]

end ColumnarQuery.FloatBits
