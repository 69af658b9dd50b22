import Mathlib.Data.Int.ModEq
import ColumnarQuery.Proofs.Value.Operation

/-!
# Integers that wrap

`Arithmetic.onIntegers` is the exact answer of an operator, and an operator returns its residue, also where it has no place
in the width (`Value.calculate_int_of_divisible`). The quotient and the remainder give the dividend back
(`Value.calculate_wraps`).
-/

namespace ColumnarQuery

/-- The exact answer of an operator on integers. A quotient is cut toward zero, and the remainder is what it leaves. -/
def Arithmetic.onIntegers : Arithmetic → Int → Int → Int
  | add => (· + ·)
  | sub => (· - ·)
  | mul => (· * ·)
  | div => Int.tdiv
  | rem => Int.tmod

namespace Value
variable {w : IntWidth}

/-! ## Residues -/

theorem int_eq_ofInt_iff {r : BitVec w.bits} {n : Int} : int w r = ofInt w n ↔ r.toInt ≡ n [ZMOD 2 ^ w.bits] := by
  have hpow : ((2 ^ w.bits : Nat) : Int) = 2 ^ w.bits := by simp
  have hint : int w r = ofInt w n ↔ r = BitVec.ofInt w.bits n := by simp [ofInt]
  rw [hint, Int.ModEq, ← hpow, ← BitVec.toInt_inj, BitVec.toInt_ofInt]
  constructor
  · intro h
    rw [h, Int.bmod_emod]
  · intro h
    rw [← Int.emod_bmod, ← h, Int.emod_bmod, BitVec.toInt_bmod_cancel]

theorem int_eq_ofInt_toInt (a : BitVec w.bits) : int w a = ofInt w a.toInt := by
  rw [int_eq_ofInt_iff]

/-- An answer is the integer of a width that is congruent to `n` modulo the width; there is no other such integer. -/
def Wraps (w : IntWidth) (n : Int) (answer : Except Error Value) : Prop :=
  ∃ r : BitVec w.bits, answer = .ok (int w r) ∧ ∀ s : BitVec w.bits, s.toInt ≡ n [ZMOD 2 ^ w.bits] ↔ s = r

theorem wraps_ofInt (w : IntWidth) (n : Int) : Wraps w n (.ok (ofInt w n)) := by
  refine ⟨BitVec.ofInt w.bits n, rfl, fun s => ?_⟩
  rw [← int_eq_ofInt_iff, ofInt, Value.int.injEq]
  simp

/-! ## One operator -/

theorem onInts_div {n : Nat} (a : BitVec n) {b : BitVec n} (hb : b ≠ 0) :
    Arithmetic.div.onInts a b = .ok (a.sdiv b) := by
  unfold Arithmetic.onInts
  exact if_neg (by simpa using fun _ => hb)

theorem onInts_rem {n : Nat} (a : BitVec n) {b : BitVec n} (hb : b ≠ 0) :
    Arithmetic.rem.onInts a b = .ok (a.srem b) := by
  unfold Arithmetic.onInts
  exact if_neg (by simpa using fun _ => hb)

theorem onInts_eq_ofInt {f : Arithmetic} {n : Nat} (a b : BitVec n) (h : ¬ (f.divides = true ∧ b = 0)) :
    f.onInts a b = .ok (BitVec.ofInt n (f.onIntegers a.toInt b.toInt)) := by
  cases f with
  | add =>
    show Except.ok (a + b) = _
    simp [Arithmetic.onIntegers, BitVec.ofInt_add]
  | sub =>
    show Except.ok (a - b) = _
    simp [Arithmetic.onIntegers, Int.sub_eq_add_neg, BitVec.ofInt_add, BitVec.ofInt_neg, BitVec.sub_eq_add_neg]
  | mul =>
    show Except.ok (a * b) = _
    simp [Arithmetic.onIntegers, BitVec.ofInt_mul]
  | div =>
    have hb : b ≠ 0 := fun hb => h ⟨rfl, hb⟩
    rw [onInts_div a hb, Except.ok.injEq, ← BitVec.toInt_inj, BitVec.toInt_sdiv, BitVec.toInt_ofInt]
    rfl
  | rem =>
    have hb : b ≠ 0 := fun hb => h ⟨rfl, hb⟩
    -- The remainder is smaller than the divisor, so that it does not wrap.
    have hexact := BitVec.toInt_bmod_cancel (a.srem b)
    rw [BitVec.toInt_srem] at hexact
    rw [onInts_rem a hb, Except.ok.injEq, ← BitVec.toInt_inj, BitVec.toInt_srem, BitVec.toInt_ofInt]
    exact hexact.symm

/-- An operator returns the residue of the exact answer wherever there is one. -/
theorem calculate_int_of_divisible {f : Arithmetic} {a b : BitVec w.bits} (h : ¬ (f.divides = true ∧ b = 0)) :
    (int w a).calculate (.arithmetic f) (int w b) = .ok (ofInt w (f.onIntegers a.toInt b.toInt)) := by
  rw [calculate_int, onInts_eq_ofInt a b h, map_ok, ofInt]

theorem calculate_ofInt {f : Arithmetic} (h : f = .add ∨ f = .mul) (m n : Int) :
    (ofInt w m).calculate (.arithmetic f) (ofInt w n) = .ok (ofInt w (f.onIntegers m n)) := by
  rw [ofInt, ofInt, calculate_int]
  rcases h with rfl | rfl
  · rw [Arithmetic.onIntegers, ofInt, BitVec.ofInt_add]
    rfl
  · rw [Arithmetic.onIntegers, ofInt, BitVec.ofInt_mul]
    rfl

theorem calculate_add_ofInt (m n : Int) :
    (ofInt w m).calculate (.arithmetic .add) (ofInt w n) = .ok (ofInt w (m + n)) :=
  calculate_ofInt (.inl rfl) m n

theorem toInt_eq_zero_iff {n : Nat} {b : BitVec n} : b.toInt = 0 ↔ b = 0 := by
  rw [← BitVec.toInt_inj]
  simp

theorem calculate_int_eq_error_iff {f : Arithmetic} {a b : BitVec w.bits} :
    (int w a).calculate (.arithmetic f) (int w b) = .error .divisionByZero ↔ (f = .div ∨ f = .rem) ∧ b.toInt = 0 := by
  rw [toInt_eq_zero_iff, ← Arithmetic.divides_iff]
  by_cases h : f.divides = true ∧ b = 0
  · obtain ⟨hd, rfl⟩ := h
    rw [calculate_int, onInts_zero hd, map_error]
    simp [hd]
  · rw [calculate_int_of_divisible h, iff_false_right h]
    exact nofun

/-! ## Quotients and remainders -/

/-- The quotient and the remainder of two integers of a width, as answers of the operators. -/
structure Quotient (a b q r : BitVec w.bits) : Prop where
  div : (int w a).calculate (.arithmetic .div) (int w b) = .ok (int w q)
  rem : (int w a).calculate (.arithmetic .rem) (int w b) = .ok (int w r)
  /-- The remainder is exact, on the side of the dividend and nearer to zero than the divisor. -/
  exact : b.toInt * a.toInt.tdiv b.toInt + r.toInt = a.toInt
  magnitude : |r.toInt| < |b.toInt|
  sign : r.toInt = 0 ∨ r.toInt.sign = a.toInt.sign
  /-- The quotient may have wrapped, and so may the product; their sum comes back all the same. -/
  dividend : (do (← (int w q).calculate (.arithmetic .mul) (int w b)).calculate (.arithmetic .add) (int w r)) =
    .ok (int w a)

theorem quotient_of_ne_zero (a : BitVec w.bits) {b : BitVec w.bits} (hb : b ≠ 0) :
    Quotient a b (a.sdiv b) (a.srem b) where
  div := by rw [calculate_int, onInts_div a hb, map_ok]
  rem := by rw [calculate_int, onInts_rem a hb, map_ok]
  exact := by rw [BitVec.toInt_srem, Int.mul_tdiv_add_tmod]
  magnitude := by
    have hpos : 0 < b.toInt.natAbs := Int.natAbs_pos.2 fun h => hb (toInt_eq_zero_iff.1 h)
    rw [BitVec.toInt_srem, Int.abs_eq_natAbs, Int.abs_eq_natAbs, Int.natAbs_tmod, Int.ofNat_lt]
    exact Nat.mod_lt _ hpos
  sign := by
    rw [BitVec.toInt_srem, ← Int.sign_eq_zero_iff_zero, Int.sign_tmod]
    split
    · exact .inl rfl
    · exact .inr rfl
  dividend := by
    have hq : int w (a.sdiv b) = ofInt w (a.toInt.tdiv b.toInt) := by
      rw [ofInt, ← BitVec.toInt_inj.1 ((BitVec.toInt_sdiv a b).trans (BitVec.toInt_ofInt ..).symm)]
    have hmul : (int w (a.sdiv b)).calculate (.arithmetic .mul) (int w b) =
        .ok (ofInt w (a.toInt.tdiv b.toInt * b.toInt)) := by
      rw [hq, int_eq_ofInt_toInt b]
      exact calculate_ofInt (.inr rfl) _ _
    rw [hmul, ok_bind, int_eq_ofInt_toInt (a.srem b), calculate_add_ofInt, BitVec.toInt_srem, Int.mul_comm,
      Int.mul_tdiv_add_tmod, ← int_eq_ofInt_toInt]

/-- The arithmetic of the integers of a width. Sums, differences, products and quotients are the exact ones modulo the
width, and only a division by zero has no answer. The least integer divided by minus one is itself, with nothing left
over. -/
theorem calculate_wraps {w : IntWidth} (a b : BitVec w.bits) :
    Wraps w (a.toInt + b.toInt) ((int w a).calculate (.arithmetic .add) (int w b)) ∧
    Wraps w (a.toInt - b.toInt) ((int w a).calculate (.arithmetic .sub) (int w b)) ∧
    Wraps w (a.toInt * b.toInt) ((int w a).calculate (.arithmetic .mul) (int w b)) ∧
    (∀ f, (int w a).calculate (.arithmetic f) (int w b) = .error .divisionByZero ↔
      (f = .div ∨ f = .rem) ∧ b.toInt = 0) ∧
    (b.toInt ≠ 0 →
      Wraps w (a.toInt.tdiv b.toInt) ((int w a).calculate (.arithmetic .div) (int w b)) ∧ ∃ q r, Quotient a b q r) ∧
    (a = BitVec.intMin w.bits → b.toInt = -1 → Quotient a b a 0) := by
  have hwraps : ∀ {f : Arithmetic}, ¬ (f.divides = true ∧ b = 0) →
      Wraps w (f.onIntegers a.toInt b.toInt) ((int w a).calculate (.arithmetic f) (int w b)) := by
    intro f h
    rw [calculate_int_of_divisible h]
    exact wraps_ofInt w _
  refine ⟨hwraps (f := .add) (by simp [Arithmetic.divides]), hwraps (f := .sub) (by simp [Arithmetic.divides]),
    hwraps (f := .mul) (by simp [Arithmetic.divides]), fun f => calculate_int_eq_error_iff, fun hb => ?_, fun ha hb => ?_⟩
  · rw [ne_eq, toInt_eq_zero_iff] at hb
    exact ⟨hwraps (f := .div) fun h => hb h.2, _, _, quotient_of_ne_zero a hb⟩
  · have hquotient := quotient_of_ne_zero a (b := b) (by rintro rfl; simp at hb)
    have hone : b = -1#w.bits := by
      rw [← BitVec.toInt_inj, hb]
      cases w <;> rfl
    have hrem : a.srem b = 0 := by
      rw [← toInt_eq_zero_iff, BitVec.toInt_srem, hb, Int.tmod_neg, Int.tmod_one]
    rwa [hrem, hone, ha, BitVec.intMin_sdiv_neg_one, ← ha, ← hone] at hquotient

/-- A quotient with signs that differ, and the one quotient that wraps. -/
theorem calculate_wraps_least :
    (∃ q r : BitVec 8, Quotient (w := .w8) 249#8 2#8 q r) ∧ Quotient (w := .w8) 128#8 255#8 128#8 0 ∧
      (Value.int .w8 249#8).calculate (.arithmetic .div) (.int .w8 2#8) = .ok (.int .w8 253#8) ∧
      Wraps .w8 (-3) ((Value.int .w8 249#8).calculate (.arithmetic .div) (.int .w8 2#8)) := by
  obtain ⟨-, -, -, -, hseven, -⟩ := calculate_wraps (w := .w8) 249#8 2#8
  obtain ⟨-, -, -, -, -, hleast⟩ := calculate_wraps (w := .w8) 128#8 255#8
  obtain ⟨hwraps, hquotient⟩ := hseven (by decide)
  exact ⟨hquotient, hleast rfl rfl, rfl, hwraps⟩

end Value

end ColumnarQuery
