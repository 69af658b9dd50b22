import ColumnarQuery.Value.Operation
import ColumnarQuery.Proofs.Traversal

/-!
# Order and equality of values

Two values of one type that is not floating point stand equal exactly if they are the same value, and in a total order
(`Value.compare_ordered`). Numbers in floating point do not: the zeros stand equal to each other, and a NaN to nothing
(`Value.compare_eq_none_iff`).
-/

namespace ColumnarQuery

theorem compareInts_eq_iff {m n : Int} : compareInts m n = .eq ↔ m = n := by
  unfold compareInts
  split
  · simp; omega
  · split <;> simp_all

theorem compareInts_eq_lt_iff {m n : Int} : compareInts m n = .lt ↔ m < n := by
  unfold compareInts
  split
  · simp [*]
  · split <;> simp [*]

theorem compareInts_eq_gt_iff {m n : Int} : compareInts m n = .gt ↔ n < m := by
  unfold compareInts
  split
  · simp; omega
  · split <;> simp <;> omega

theorem compareChars_eq_iff {cs ds : List Char} : compareChars cs ds = .eq ↔ cs = ds := by
  fun_induction compareChars cs ds with
  | case1 => simp
  | case2 => simp
  | case3 => simp
  | case4 c cs d ds hlt =>
    simp only [reduceCtorEq, List.cons.injEq, false_iff, not_and]
    rintro rfl
    omega
  | case5 c cs d ds hlt heq ih =>
    have hcd : c = d := Char.ext (UInt32.toNat_inj.1 heq)
    rw [ih, List.cons.injEq, and_iff_right hcd]
  | case6 c cs d ds hlt hne =>
    simp only [reduceCtorEq, List.cons.injEq, false_iff, not_and]
    rintro rfl
    exact absurd rfl hne

theorem compareInts_swap (m n : Int) : (compareInts m n).swap = compareInts n m := by
  cases h : compareInts m n with
  | lt => exact (compareInts_eq_gt_iff.2 (compareInts_eq_lt_iff.1 h)).symm
  | eq => exact (compareInts_eq_iff.2 (compareInts_eq_iff.1 h).symm).symm
  | gt => exact (compareInts_eq_lt_iff.2 (compareInts_eq_gt_iff.1 h)).symm

theorem compareChars_swap (cs ds : List Char) : (compareChars cs ds).swap = compareChars ds cs := by
  fun_induction compareChars cs ds with
  | case1 => rfl
  | case2 => rfl
  | case3 => rfl
  | case4 c cs d ds hlt => rw [compareChars, if_neg (by omega), if_neg (by omega), Ordering.swap]
  | case5 c cs d ds hlt heq ih => rw [compareChars, if_neg (by omega), if_pos heq.symm, ih]
  | case6 c cs d ds hlt hne => rw [compareChars, if_pos (by omega), Ordering.swap]

/-- Texts stand in the lexicographic order of their code points. -/
theorem compareChars_eq_lt_iff {cs ds : List Char} :
    compareChars cs ds = .lt ↔ cs.map Char.toNat < ds.map Char.toNat := by
  fun_induction compareChars cs ds with
  | case1 => simp
  | case2 => simp
  | case3 => simp
  | case4 c cs d ds hlt => simp [List.cons_lt_cons_iff, hlt]
  | case5 c cs d ds hlt heq ih => simp [heq, ih]
  | case6 c cs d ds hlt hne => simp [List.cons_lt_cons_iff, hlt, hne]

/-- The order of two numbers in floating point is that of their keys, where neither is a NaN. -/
theorem FloatBits.compare_eq {w : FloatWidth} (x y : FloatBits w) :
    x.compare y = if x.isNaN || y.isNaN then none else some (compareInts x.orderKey y.orderKey) := by
  unfold compare compareInts
  split
  · rfl
  · split
    · rfl
    · split <;> rfl

namespace Value

/-- Order tells values apart as equality does, where no floating point is involved. -/
theorem compare_eq_ok {a b : Value} (ht : a.type = b.type) (hf : a.type.isFloating = false) :
    ∃ o, a.compare b = .ok o ∧ (o = some .eq ↔ a = b) := by
  cases a with
  | boolean p =>
    cases b <;> cases ht
    rename_i q
    refine ⟨_, rfl, ?_⟩
    rw [Option.some.injEq, compareInts_eq_iff, Value.boolean.injEq]
    cases p <;> cases q <;> decide
  | int w m =>
    cases b <;> cases ht
    rename_i n
    refine ⟨_, by rw [compare, if_pos rfl], ?_⟩
    rw [Option.some.injEq, compareInts_eq_iff, BitVec.toInt_inj]
    simp
  | float w x => cases hf
  | text s =>
    cases b <;> cases ht
    rename_i t
    refine ⟨_, rfl, ?_⟩
    rw [Option.some.injEq, compareChars_eq_iff, String.toList_inj, Value.text.injEq]

theorem apply_eq {a b : Value} (ht : a.type = b.type) (hf : a.type.isFloating = false) :
    a.apply (.comparison .eq) b = .ok (.boolean (a = b)) := by
  obtain ⟨o, ho, heq⟩ := compare_eq_ok ht hf
  rw [apply, ho, ok_bind, pure_eq_ok, Comparison.holds]
  simp only [heq]

theorem compare_swap {a b : Value} (ht : a.type = b.type) : Option.map Ordering.swap <$> a.compare b = b.compare a := by
  cases a with
  | boolean p =>
    cases b <;> cases ht
    simp only [compare, map_ok, Option.map_some, compareInts_swap]
  | int w m =>
    cases b <;> cases ht
    simp only [compare, if_pos, map_ok, Option.map_some, compareInts_swap]
  | float w x =>
    cases b <;> cases ht
    rename_i y
    simp only [compare, dif_pos, map_ok, FloatBits.compare_eq, Bool.or_comm y.isNaN]
    split
    · rfl
    · rw [Option.map_some, compareInts_swap]
  | text s =>
    cases b <;> cases ht
    simp only [compare, map_ok, Option.map_some, compareChars_swap]

/-! ## Values that are not in floating point -/

/-- The order of the values of a type: false stands before true, an integer before the greater ones, and a text before
those that are greater at the first code point at which they differ. -/
def Before : Value → Value → Prop
  | boolean p, boolean q => p < q
  | int _ m, int _ n => m.toInt < n.toInt
  | text s, text t => s.toList.map Char.toNat < t.toList.map Char.toNat
  | _, _ => False

theorem compare_ordered {a b : Value} (ht : a.type = b.type) (hf : a.type.isFloating = false) :
    ∃ o, a.compare b = .ok (some o) ∧ (o = .eq ↔ a = b) ∧ (o = .lt ↔ a.Before b) := by
  obtain ⟨o, ho, heq⟩ := compare_eq_ok ht hf
  cases a with
  | boolean p =>
    cases b <;> cases ht
    rename_i q
    cases ho
    refine ⟨_, rfl, by simpa using heq, ?_⟩
    rw [compareInts_eq_lt_iff]
    show _ ↔ p < q
    cases p <;> cases q <;> decide
  | int w m =>
    cases b <;> cases ht
    rw [compare, if_pos rfl] at ho
    cases ho
    exact ⟨_, by rw [compare, if_pos rfl], by simpa using heq, compareInts_eq_lt_iff⟩
  | float w x => cases hf
  | text s =>
    cases b <;> cases ht
    cases ho
    exact ⟨_, rfl, by simpa using heq, compareChars_eq_lt_iff⟩

theorem Before.trans {a b c : Value} (hab : a.Before b) (hbc : b.Before c) : a.Before c := by
  cases a <;> cases b <;> try contradiction
  all_goals cases c <;> try contradiction
  · exact Bool.lt_trans hab hbc
  · exact Int.lt_trans hab hbc
  · exact List.lt_trans hab hbc

theorem isStrictTotalOrder_before {t : DataType} (ht : t.isFloating = false) :
    IsStrictTotalOrder {v : Value // v.type = t} fun a b => a.1.Before b.1 where
  irrefl := by
    rintro ⟨a, rfl⟩ hbefore
    obtain ⟨o, -, heq, hlt⟩ := compare_ordered (a := a) rfl ht
    rw [← hlt, heq.2 rfl] at hbefore
    cases hbefore
  trans _ _ _ := Before.trans
  trichotomous := by
    rintro ⟨a, rfl⟩ ⟨b, hb⟩ hab hba
    obtain ⟨o, ho, heq, hlt⟩ := compare_ordered hb.symm ht
    obtain ⟨o', ho', -, hgt⟩ := compare_ordered hb (hb ▸ ht)
    rw [← compare_swap hb.symm, ho, map_ok, Option.map_some, Except.ok.injEq, Option.some.injEq] at ho'
    have ho : o = .eq := by
      cases o with
      | lt => exact absurd (hlt.1 rfl) hab
      | eq => rfl
      | gt => exact absurd (hgt.1 ho'.symm) hba
    exact Subtype.ext (heq.1 ho)

/-! ## Numbers -/

def isNaN : Value → Bool
  | float _ x => x.isNaN
  | _ => false

/-- An integer that grows with a number. A NaN has none, nor has a value that is no number. -/
def orderKey? : Value → Option Int
  | int _ n => some n.toInt
  | float _ x => if x.isNaN then none else some x.orderKey
  | _ => none

theorem isNaN_of_orderKey? {v : Value} {i : Int} (h : v.orderKey? = some i) : v.isNaN = false := by
  cases v with
  | float w x => simpa [isNaN] using (Option.ite_none_left_eq_some.1 h).1
  | _ => rfl

theorem compare_eq_none_iff {a b : Value} (ht : a.type = b.type) :
    a.compare b = .ok none ↔ a.isNaN = true ∨ b.isNaN = true := by
  cases a with
  | float w x =>
    cases b <;> cases ht
    rename_i y
    cases hx : x.isNaN <;> simp [compare, isNaN, FloatBits.compare_eq, hx]
  | int w m =>
    cases b <;> cases ht
    simp [compare, isNaN]
  | _ =>
    cases b <;> cases ht
    simp [compare, isNaN]

section Numbers
variable {a b v : Value} {o : Ordering} {t : DataType}

theorem exists_orderKey? (ht : v.type = t) (hn : t.isNumeric = true) (hv : v.isNaN = false) :
    ∃ i, v.orderKey? = some i := by
  subst ht
  cases v with
  | int w n => exact ⟨_, rfl⟩
  | float w x => exact ⟨x.orderKey, if_neg (by simpa [isNaN] using hv)⟩
  | _ => cases hn

/-- Numbers of one type stand in an order unless one of them is a NaN, and as their keys do. -/
theorem compare_eq_some_iff (ha : a.type = t) (hb : b.type = t) (hn : t.isNumeric = true) :
    a.compare b = .ok (some o) ↔
      ∃ i j, a.orderKey? = some i ∧ b.orderKey? = some j ∧ compareInts i j = o := by
  subst ha
  cases a with
  | int w m =>
    cases b <;> cases hb
    rw [compare, if_pos rfl]
    simp [orderKey?]
  | float w x =>
    cases b <;> cases hb
    rename_i y
    have hcompare : (float w x).compare (float w y) = .ok (x.compare y) := by rw [compare, dif_pos rfl]
    rw [hcompare, FloatBits.compare_eq]
    cases hx : x.isNaN <;> cases hy : y.isNaN <;> simp [orderKey?, hx, hy]
  | _ => cases hn

end Numbers

end Value

end ColumnarQuery
