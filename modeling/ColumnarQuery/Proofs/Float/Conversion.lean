import ColumnarQuery.Proofs.Float.Rounding

/-!
# Conversion to double precision

An integer becomes the nearest number (`FloatBits.rounds_ofRat`). A number in single precision keeps its sign and its place
(`FloatBits.place_widen`), and a NaN stays one.
-/

namespace ColumnarQuery.FloatBits

variable {w : FloatWidth} {r : ℚ} {m : Nat}

/-! ## Numbers without a rounding error -/

theorem nearest_of_eq (hm : m ≤ w.infinity) (h : absOfMagnitude w m = r) : Nearest w r m := by
  refine ⟨hm, fun k _ => ?_, fun k _ hne htie => ?_⟩
  · rw [h, sub_self, abs_zero]
    exact abs_nonneg _
  · rw [h, sub_self, abs_zero, eq_comm, abs_eq_zero, sub_eq_zero, ← h] at htie
    exact absurd ((strictMono_absOfMagnitude w).injective htie).symm hne

/-- A finite magnitude in single precision has its value in double precision too, where each significand has room for its
hidden bit. -/
theorem exists_double_magnitude (hm : m < FloatWidth.single.infinity) :
    ∃ k < FloatWidth.double.infinity, absOfMagnitude .double k = absOfMagnitude .single m := by
  have hinfinity : FloatWidth.single.infinity = 255 * 2 ^ 23 := by decide
  have hinfinity' : FloatWidth.double.infinity = 2047 * 2 ^ 52 := by decide
  have hlt : significand .single m < 2 ^ 24 := significand_lt .single m
  have hscale : scale .single m ≤ 253 := by
    have hdiv : m / 2 ^ 23 < 255 := Nat.div_lt_of_lt_mul (by omega)
    exact Nat.sub_le_of_le_add (Nat.le_of_lt_succ hdiv)
  rw [absOfMagnitude_eq .single]
  generalize significand .single m = s at hlt ⊢
  generalize scale .single m = e at hscale ⊢
  rcases Nat.eq_zero_or_pos s with rfl | hs
  · exact ⟨0, by decide, by simp [absOfMagnitude_zero]⟩
  · -- The leading bit moves to the place of the hidden bit, and the unit shrinks as much.
    have hlog : s.log2 < 24 := (Nat.log2_lt hs.ne').2 hlt
    obtain ⟨shift, hshift⟩ : ∃ shift, s.log2 + shift = 52 := ⟨52 - s.log2, by omega⟩
    have hlow : 2 ^ 52 ≤ s * 2 ^ shift := by
      rw [← hshift, Nat.pow_add]
      exact Nat.mul_le_mul_right _ (Nat.log2_self_le hs.ne')
    have hhigh : s * 2 ^ shift < 2 * 2 ^ 52 := by
      rw [← hshift, Nat.pow_add, ← Nat.mul_assoc, ← Nat.pow_succ']
      exact Nat.mul_lt_mul_of_pos_right Nat.lt_log2_self (Nat.two_pow_pos _)
    have hvalue := absOfMagnitude_significand (w := .double) (e := 925 + e - shift) hhigh.le (.inr hlow)
    refine ⟨(925 + e - shift) * 2 ^ 52 + s * 2 ^ shift, by omega, hvalue.trans ?_⟩
    have hunit : FloatWidth.single.minExponent + e = shift + (FloatWidth.double.minExponent + (925 + e - shift : Nat)) := by
      simp only [FloatWidth.minExponent]
      omega
    rw [hunit, zpow_add₀ two_ne_zero (shift : ℤ), zpow_natCast]
    push_cast
    ring

/-! ## Widening -/

theorem widen_finite {x : FloatBits .single} (hx : x.magnitude < FloatWidth.single.infinity) :
    x.widen.isNegative = x.isNegative ∧ x.widen.magnitude < FloatWidth.double.infinity ∧ x.widen.toRat = x.toRat := by
  have habs : 0 ≤ x.abs := absOfMagnitude_nonneg _ _
  have hfinite : x.isInfinite = false := decide_eq_false hx.ne
  have hnumber : x.isNaN = false := isNaN_eq_false_iff.2 hx.le
  obtain ⟨k, hk, hvalue⟩ := exists_double_magnitude hx
  have hrounds : Rounds x.isNegative x.toRat x.widen := by
    rw [widen]
    simp only [hnumber, hfinite, Bool.false_eq_true, if_false]
    exact rounds_ofRat .double _ _
  have hsign : x.widen.isNegative = x.isNegative :=
    hrounds.isNegative_eq.trans (negative_eq_signed x.isNegative habs).symm
  have hmagnitude : x.widen.magnitude = k := by
    refine hrounds.nearest.unique (nearest_of_eq hk.le ?_)
    rw [hvalue, toRat, abs_signed x.isNegative habs, abs]
  refine ⟨hsign, hmagnitude ▸ hk, ?_⟩
  rw [toRat, toRat, hsign, abs, abs, hmagnitude, hvalue]

/-- A number has the same sign and the same place in double precision. -/
theorem place_widen {x : FloatBits w} (hx : x.isNaN = false) :
    x.widen.isNaN = false ∧ x.widen.isNegative = x.isNegative ∧ x.widen.place = x.place := by
  cases w with
  | double => exact ⟨hx, rfl, rfl⟩
  | single =>
    cases hi : x.isInfinite with
    | true =>
      have hwiden : x.widen = infinite .double x.isNegative := by
        rw [widen]
        simp only [hx, hi, Bool.false_eq_true, if_false, if_true]
      have hmagnitude := magnitude_ofMagnitude x.isNegative (infinity_lt .double)
      have hsign := isNegative_ofMagnitude x.isNegative (infinity_lt .double)
      rw [hwiden, infinite, place, place, hsign, hi, if_pos rfl, isInfinite, hmagnitude, decide_eq_true rfl, if_pos rfl]
      exact ⟨isNaN_eq_false_iff.2 hmagnitude.le, rfl, rfl⟩
    | false =>
      have hfinite := lt_of_le_of_ne (isNaN_eq_false_iff.1 hx) (of_decide_eq_false hi)
      obtain ⟨hsign, hlt, hvalue⟩ := widen_finite hfinite
      have hi' : x.widen.isInfinite = false := decide_eq_false hlt.ne
      exact ⟨isNaN_eq_false_iff.2 hlt.le, hsign, by rw [place, place, hi, hi', hvalue]; rfl⟩

theorem payload_quiet_ne_zero (x : FloatBits .single) : x.quiet.magnitude % 2 ^ 23 ≠ 0 := by
  have hquiet : (BitVec.ofNat FloatWidth.single.bits FloatWidth.single.quietBit).toNat.testBit 22 = true := by decide
  have hbit : (x.quiet.magnitude % 2 ^ 23).testBit 22 = true := by
    rw [magnitude, Nat.one_shiftLeft, quiet, BitVec.toNat_or, Nat.testBit_mod_two_pow, Nat.testBit_mod_two_pow,
      Nat.testBit_or, hquiet, Bool.or_true]
    rfl
  intro h
  rw [h, Nat.zero_testBit] at hbit
  cases hbit

/-- The payload of a NaN moves to the front of the wider fraction. -/
theorem isNaN_widen {x : FloatBits w} (hx : x.isNaN = true) :
    x.widen.isNaN = true ∧ x.widen.isNegative = x.isNegative := by
  cases w with
  | double => exact ⟨hx, rfl⟩
  | single =>
    have hpos : 0 < x.quiet.magnitude % 2 ^ 23 := Nat.pos_of_ne_zero (payload_quiet_ne_zero x)
    have hlt : x.quiet.magnitude % 2 ^ 23 < 2 ^ 23 := Nat.mod_lt _ (Nat.two_pow_pos 23)
    have hwiden : x.widen =
        ofMagnitude .double x.isNegative (FloatWidth.double.infinity + x.quiet.magnitude % 2 ^ 23 * 2 ^ 29) := by
      rw [widen]
      simp only [hx, if_true, Nat.shiftLeft_eq, Nat.one_mul, FloatWidth.fractionBits, Nat.reduceSub]
    generalize x.quiet.magnitude % 2 ^ 23 = payload at hpos hlt hwiden
    have hinfinity : FloatWidth.double.infinity = 2047 * 2 ^ 52 := by decide
    have hfits : FloatWidth.double.infinity + payload * 2 ^ 29 < 2 ^ (FloatWidth.double.bits - 1) := by
      show _ < 2 ^ 63
      omega
    rw [hwiden, isNaN, magnitude_ofMagnitude _ hfits, isNegative_ofMagnitude _ hfits]
    exact ⟨decide_eq_true (by omega), rfl⟩

end ColumnarQuery.FloatBits
