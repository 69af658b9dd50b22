import ColumnarQuery.Float.Rounding
import ColumnarQuery.Proofs.Float.Order

/-!
# Rounding to the nearest number

`FloatBits.Nearest` : the magnitude whose value no other is nearer to, of two the one with the even significand. There is
only one, and it is what is computed (`FloatBits.nearest_nearestMagnitude`).
-/

namespace ColumnarQuery

/-! ## To a natural number -/

section Half
variable {r : ℚ} (hr : 0 ≤ r)
include hr

/-- The rounding error is at most a half, and if it is one the answer is even. -/
theorem roundHalfEven_error : |r - roundHalfEven r| ≤ 1 / 2 ∧ (|r - roundHalfEven r| = 1 / 2 → roundHalfEven r % 2 = 0) := by
  have hfloor : ((r.floor.toNat : Nat) : ℚ) = ⌊r⌋ := by
    have hnonneg : 0 ≤ r.floor := Int.floor_nonneg.2 hr
    exact_mod_cast congrArg (Int.cast (R := ℚ)) (Int.toNat_of_nonneg hnonneg)
  have hle := Int.floor_le r
  have hlt := Int.lt_floor_add_one r
  have hhalf : (mkRat 1 2 : ℚ) = 1 / 2 := by rw [Rat.mkRat_eq_div]; norm_num
  unfold roundHalfEven
  simp only [hhalf, hfloor]
  split
  · rename_i h
    rw [hfloor, abs_of_nonneg (by linarith)]
    exact ⟨h.le, fun heq => absurd heq h.ne⟩
  · split
    · rename_i h
      push_cast
      rw [hfloor, abs_of_nonpos (by linarith)]
      exact ⟨by linarith, fun heq => by linarith⟩
    · have heq : r - ⌊r⌋ = 1 / 2 := by linarith
      split
      · rename_i heven
        rw [hfloor, heq]
        exact ⟨(abs_of_pos (by norm_num)).le, fun _ => heven⟩
      · rename_i hodd
        push_cast
        rw [hfloor, show r - (⌊r⌋ + 1) = -(1 / 2) by linarith, abs_neg]
        exact ⟨(abs_of_pos (by norm_num)).le, fun _ => by omega⟩

theorem roundHalfEven_nearest (k : Nat) : |r - roundHalfEven r| ≤ |r - k| ∧
    (k ≠ roundHalfEven r → |r - roundHalfEven r| = |r - k| → roundHalfEven r % 2 = 0) := by
  obtain ⟨herror, heven⟩ := roundHalfEven_error hr
  by_cases hk : k = roundHalfEven r
  · subst hk
    exact ⟨le_rfl, fun h => absurd rfl h⟩
  · have hapart : (1 : ℚ) ≤ |(k : ℚ) - roundHalfEven r| := by
      have hint : (1 : ℤ) ≤ |(k : ℤ) - roundHalfEven r| := Int.one_le_abs (by omega)
      exact_mod_cast hint
    have htriangle := abs_sub_le (k : ℚ) r (roundHalfEven r)
    rw [abs_sub_comm (k : ℚ) r] at htriangle
    exact ⟨by linarith, fun _ h => heven (by linarith)⟩

end Half

/-! ## Binades -/

theorem zpow_binaryExponent_le {r : ℚ} (hr : 0 < r) :
    (2 : ℚ) ^ binaryExponent r ≤ r ∧ r < 2 ^ (binaryExponent r + 1) := by
  have hnum : 0 < r.num := Rat.num_pos.2 hr
  have hden : (0 : ℚ) < r.den := by exact_mod_cast r.den_pos
  have hr' : r * r.den = r.num.natAbs := by
    rw [Rat.mul_den_eq_num, ← Int.cast_natCast (R := ℚ), Int.natAbs_of_nonneg hnum.le]
  have hnumlow : (2 : ℚ) ^ (r.num.natAbs.log2 : ℤ) ≤ r * r.den := by
    rw [hr', zpow_natCast]
    exact_mod_cast Nat.log2_self_le (by omega)
  have hnumhigh : r * r.den < (2 : ℚ) ^ (r.num.natAbs.log2 + 1 : ℤ) := by
    rw [hr']
    exact_mod_cast Nat.lt_log2_self (n := r.num.natAbs)
  have hdenlow : (2 : ℚ) ^ (r.den.log2 : ℤ) ≤ r.den := by
    rw [zpow_natCast]
    exact_mod_cast Nat.log2_self_le r.den_nz
  have hdenhigh : (r.den : ℚ) < (2 : ℚ) ^ (r.den.log2 + 1 : ℤ) := by
    exact_mod_cast Nat.lt_log2_self (n := r.den)
  have hestimate : r < (2 : ℚ) ^ ((r.num.natAbs.log2 : ℤ) - r.den.log2 + 1) := by
    rw [show (r.num.natAbs.log2 : ℤ) - r.den.log2 + 1 = r.num.natAbs.log2 + 1 - r.den.log2 by ring,
      zpow_sub₀ two_ne_zero, lt_div_iff₀ (by positivity)]
    exact (mul_le_mul_of_nonneg_left hdenlow hr.le).trans_lt hnumhigh
  have hbelow : (2 : ℚ) ^ ((r.num.natAbs.log2 : ℤ) - r.den.log2 - 1) ≤ r := by
    rw [sub_sub, zpow_sub₀ two_ne_zero, div_le_iff₀ (by positivity)]
    exact hnumlow.trans (mul_le_mul_of_nonneg_left hdenhigh.le hr.le)
  unfold binaryExponent
  simp only [FloatBits.twoPow_eq]
  split
  · rename_i h
    exact ⟨hbelow, by rwa [sub_add_cancel]⟩
  · rename_i h
    exact ⟨not_lt.1 h, hestimate⟩

namespace FloatBits
variable {w : FloatWidth} {r : ℚ} {m : Nat}

/-! ## To a magnitude -/

/-- No magnitude has a value nearer to a number, and of two that are as near the significand is even. Infinity has the value
that the next number after the greatest finite one would have. -/
structure Nearest (w : FloatWidth) (r : ℚ) (m : Nat) : Prop where
  le : m ≤ w.infinity
  distance_le : ∀ k ≤ w.infinity, |r - absOfMagnitude w m| ≤ |r - absOfMagnitude w k|
  even : ∀ k ≤ w.infinity, k ≠ m → |r - absOfMagnitude w m| = |r - absOfMagnitude w k| → m % 2 = 0

theorem Nearest.eq_of_le {n : Nat} (hm : Nearest w r m) (hn : Nearest w r n) (hmn : m ≤ n) : m = n := by
  by_contra hne
  have htie := le_antisymm (hm.distance_le n hn.le) (hn.distance_le m hm.le)
  have hmeven := hm.even n hn.le (Ne.symm hne) htie
  have hneven := hn.even m hm.le hne htie.symm
  -- Between the two stands an odd magnitude, which is nearer.
  have hlow := strictMono_absOfMagnitude w (Nat.lt_succ_self m)
  have hhigh := strictMono_absOfMagnitude w (show m + 1 < n by omega)
  have hbetween := hm.distance_le (m + 1) (by have := hn.le; omega)
  rcases abs_eq_abs.1 htie with h | h
  · linarith
  · rw [abs_of_nonneg (by linarith)] at hbetween
    rcases abs_cases (r - absOfMagnitude w (m + 1)) with ⟨h', -⟩ | ⟨h', -⟩ <;> linarith

theorem Nearest.unique {n : Nat} (hm : Nearest w r m) (hn : Nearest w r n) : m = n := by
  rcases Nat.le_total m n with h | h
  · exact hm.eq_of_le hn h
  · exact (hn.eq_of_le hm h).symm

theorem exists_multiple_or_lt (w : FloatWidth) (e k : Nat) :
    (∃ j : Nat, absOfMagnitude w k = j * 2 ^ (w.minExponent + e)) ∨
      e ≠ 0 ∧ absOfMagnitude w k < 2 ^ w.fractionBits * 2 ^ (w.minExponent + e) := by
  rw [absOfMagnitude_eq]
  rcases Nat.lt_or_ge (scale w k) e with h | h
  · refine .inr ⟨by omega, ?_⟩
    have hsignificand : (significand w k : ℚ) < 2 * 2 ^ w.fractionBits := by exact_mod_cast significand_lt w k
    have hunit : (2 : ℚ) * 2 ^ (w.minExponent + scale w k) ≤ 2 ^ (w.minExponent + e) := by
      rw [mul_comm, ← zpow_add_one₀ two_ne_zero]
      exact zpow_le_zpow_right₀ one_le_two (by omega)
    calc (significand w k : ℚ) * 2 ^ (w.minExponent + scale w k)
        < 2 * 2 ^ w.fractionBits * 2 ^ (w.minExponent + scale w k) := by
          exact mul_lt_mul_of_pos_right hsignificand (by positivity)
      _ = 2 ^ w.fractionBits * (2 * 2 ^ (w.minExponent + scale w k)) := by ring
      _ ≤ _ := by exact mul_le_mul_of_nonneg_left hunit (by positivity)
  · refine .inl ⟨significand w k * 2 ^ (scale w k - e), ?_⟩
    push_cast
    rw [mul_assoc, ← zpow_natCast (2 : ℚ) (scale w k - e), ← zpow_add₀ two_ne_zero]
    congr 2
    omega

/-- A magnitude that is nearest among all is so among those up to infinity, once it is cut there. -/
theorem nearest_min {M : Nat} (h : ∀ k : Nat, |r - absOfMagnitude w M| ≤ |r - absOfMagnitude w k| ∧
    (k ≠ M → |r - absOfMagnitude w M| = |r - absOfMagnitude w k| → M % 2 = 0)) : Nearest w r (min M w.infinity) := by
  rcases Nat.le_total M w.infinity with hM | hM
  · rw [Nat.min_eq_left hM]
    exact ⟨hM, fun k _ => (h k).1, fun k _ => (h k).2⟩
  · rw [Nat.min_eq_right hM]
    rcases Nat.lt_or_eq_of_le hM with hlt | rfl
    · have hmono := strictMono_absOfMagnitude w
      have hbelow := hmono hlt
      have hnearer := (h w.infinity).1
      have hr : absOfMagnitude w w.infinity < r := by
        by_contra hnot
        rw [abs_of_nonpos (by linarith), abs_of_nonpos (by linarith)] at hnearer
        linarith
      have hdistance : ∀ k ≤ w.infinity, |r - absOfMagnitude w k| = r - absOfMagnitude w k := by
        intro k hk
        have hle := hmono.monotone hk
        exact abs_of_nonneg (by linarith)
      refine ⟨le_rfl, fun k hk => ?_, fun k hk hne htie => ?_⟩
      · rw [hdistance _ le_rfl, hdistance k hk]
        have hle := hmono.monotone hk
        linarith
      · rw [hdistance _ le_rfl, hdistance k hk, sub_right_inj] at htie
        exact absurd (hmono.injective htie).symm hne
    · exact ⟨le_rfl, fun k _ => (h k).1, fun k _ => (h k).2⟩

theorem roundHalfEven_le {n : Nat} (hr : 0 ≤ r) (h : r ≤ n) : roundHalfEven r ≤ n := by
  have herror := (abs_le.1 (roundHalfEven_error hr).1).1
  have hlt : (roundHalfEven r : ℚ) < n + 1 := by linarith
  exact Nat.lt_succ_iff.1 (by exact_mod_cast hlt)

theorem le_roundHalfEven {n : Nat} (hr : 0 ≤ r) (h : n ≤ r) : n ≤ roundHalfEven r := by
  have herror := (abs_le.1 (roundHalfEven_error hr).1).2
  have hlt : (n : ℚ) < roundHalfEven r + 1 := by linarith
  exact Nat.lt_succ_iff.1 (by exact_mod_cast hlt)

/-- In a unit in which a number has a significand with its hidden bit, or in the least unit, the rounded significand gives
the nearest magnitude of all. -/
theorem nearest_significand {e : Nat} (hr : 0 ≤ r) (hhigh : r < 2 ^ (w.fractionBits + 1) * 2 ^ (w.minExponent + e))
    (hlow : e = 0 ∨ 2 ^ w.fractionBits * 2 ^ (w.minExponent + e) ≤ r) (k : Nat) :
    let M := e * 2 ^ w.fractionBits + roundHalfEven (r / 2 ^ (w.minExponent + e))
    |r - absOfMagnitude w M| ≤ |r - absOfMagnitude w k| ∧
      (k ≠ M → |r - absOfMagnitude w M| = |r - absOfMagnitude w k| → M % 2 = 0) := by
  intro M
  set u : ℚ := 2 ^ (w.minExponent + e) with hu
  have hupos : 0 < u := by positivity
  have hrn : 0 ≤ r / u := by positivity
  set s := roundHalfEven (r / u) with hs
  have hM : absOfMagnitude w M = s * u := by
    refine absOfMagnitude_significand (roundHalfEven_le hrn ?_) (hlow.imp_right fun h => le_roundHalfEven hrn ?_)
    · rw [div_le_iff₀ hupos]
      push_cast
      rw [← pow_succ']
      exact hhigh.le
    · rw [le_div_iff₀ hupos]
      exact_mod_cast h
  have hscaled : ∀ j : ℚ, |r - j * u| = |r / u - j| * u := by
    intro j
    rw [← abs_of_pos hupos, ← abs_mul, abs_of_pos hupos, sub_mul, div_mul_cancel₀ _ hupos.ne']
  have hnearest := roundHalfEven_nearest hrn
  have hodd : s % 2 = 0 → M % 2 = 0 := by
    have hpow : 2 ^ w.fractionBits % 2 = 0 := by cases w <;> rfl
    intro h
    rw [Nat.add_mod, Nat.mul_mod, hpow, Nat.mul_zero, Nat.zero_mod, ← hs, h]
  rw [hM, hscaled]
  rcases exists_multiple_or_lt w e k with ⟨j, hj⟩ | ⟨he, hlt⟩
  · rw [hj, hscaled]
    refine ⟨mul_le_mul_of_nonneg_right (hnearest j).1 hupos.le, fun hne htie => ?_⟩
    have hjs : j ≠ s := by
      rintro rfl
      exact hne ((strictMono_absOfMagnitude w).injective (by rw [hj, hM]))
    exact hodd ((hnearest j).2 hjs (mul_right_cancel₀ hupos.ne' htie))
  · have hbinade := hlow.resolve_left he
    have hcloser := mul_le_mul_of_nonneg_right (hnearest (2 ^ w.fractionBits)).1 hupos.le
    rw [← hscaled, ← hscaled] at hcloser
    push_cast at hcloser
    rw [abs_of_nonneg (sub_nonneg.2 hbinade)] at hcloser
    rw [← hscaled, abs_of_nonneg (by linarith : 0 ≤ r - absOfMagnitude w k)]
    exact ⟨by linarith, fun _ htie => by linarith⟩

theorem nearest_nearestMagnitude (w : FloatWidth) {r : ℚ} (hr : 0 ≤ r) : Nearest w r (nearestMagnitude w r) := by
  unfold nearestMagnitude
  split
  · rename_i h
    refine ⟨Nat.zero_le _, fun k _ => ?_, fun k _ _ _ => rfl⟩
    rw [h, absOfMagnitude_zero, sub_zero, abs_zero]
    exact abs_nonneg _
  · rename_i h
    have hpos : 0 < r := lt_of_le_of_ne hr (Ne.symm h)
    obtain ⟨hlow, hhigh⟩ := zpow_binaryExponent_le hpos
    obtain ⟨e, he⟩ : ∃ e : Nat, max (binaryExponent r - w.fractionBits) w.minExponent = w.minExponent + e :=
      ⟨(max (binaryExponent r - w.fractionBits) w.minExponent - w.minExponent).toNat, by omega⟩
    have hunit : (w.minExponent + e - w.minExponent).toNat = e := by omega
    simp only [he, hunit, twoPow_eq, Nat.shiftLeft_eq]
    refine nearest_min (nearest_significand hr ?_ ?_)
    · refine hhigh.trans_le ?_
      rw [← zpow_natCast, ← zpow_add₀ two_ne_zero]
      exact zpow_le_zpow_right₀ one_le_two (by push_cast; omega)
    · rw [or_iff_not_imp_left]
      intro hne
      refine le_trans (le_of_eq ?_) hlow
      rw [← zpow_natCast, ← zpow_add₀ two_ne_zero]
      congr 1
      omega

/-! ## To a number -/

/-- A number is the one nearest to a rational number, on the side of zero on which that is. Zero has no side of its own. -/
structure Rounds (zeroNegative : Bool) (r : ℚ) (x : FloatBits w) : Prop where
  isNegative_eq : x.isNegative = if r = 0 then zeroNegative else decide (r < 0)
  nearest : Nearest w |r| x.magnitude

theorem Rounds.unique {zeroNegative : Bool} {x y : FloatBits w} (hx : Rounds zeroNegative r x)
    (hy : Rounds zeroNegative r y) : x = y :=
  eq_iff.2 ⟨hx.isNegative_eq.trans hy.isNegative_eq.symm, hx.nearest.unique hy.nearest⟩

theorem rounds_ofMagnitude {zeroNegative negative : Bool} (hs : negative = if r = 0 then zeroNegative else decide (r < 0)) :
    Rounds zeroNegative r (ofMagnitude w negative (nearestMagnitude w |r|)) := by
  have hnearest := nearest_nearestMagnitude w (abs_nonneg r)
  have hlt := lt_of_le_of_lt hnearest.le (infinity_lt w)
  exact ⟨(isNegative_ofMagnitude negative hlt).trans hs, by rwa [magnitude_ofMagnitude negative hlt]⟩

section Signed
variable (negative : Bool) {a : ℚ} (ha : 0 ≤ a)
include ha

theorem abs_signed : |if negative then -a else a| = a := by
  split
  · rw [abs_neg, abs_of_nonneg ha]
  · rw [abs_of_nonneg ha]

/-- A sign is that of the number it makes of an absolute value, unless that is zero. -/
theorem negative_eq_signed :
    negative = if (if negative then -a else a) = 0 then negative else decide ((if negative then -a else a) < 0) := by
  cases negative with
  | true =>
    rw [if_pos rfl]
    split
    · rfl
    · rename_i hne
      rw [eq_comm, decide_eq_true_iff, neg_lt_zero]
      exact lt_of_le_of_ne ha (Ne.symm (mt neg_eq_zero.2 hne))
  | false =>
    rw [if_neg Bool.false_ne_true, decide_eq_false (not_lt.2 ha), ite_self]

end Signed

theorem rounds_ofRat (w : FloatWidth) (zeroNegative : Bool) (r : ℚ) : Rounds zeroNegative r (ofRat w zeroNegative r) := by
  have habs : Rat.abs r = |r| := by
    rw [Rat.abs]
    split
    · rw [abs_of_nonneg (by assumption)]
    · rw [abs_of_neg (by linarith)]
  rw [ofRat, habs]
  exact rounds_ofMagnitude rfl

end FloatBits

end ColumnarQuery
