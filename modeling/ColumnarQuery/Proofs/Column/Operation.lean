import ColumnarQuery.Column.Operation
import ColumnarQuery.Proofs.Value.Operation

/-!
# Binary operators on columns

`Column.apply_eq_ok` and `Column.exists_apply` tell when an operator has an answer and which values it holds, and
`Column.apply_eq_error_iff` why it has none.
-/

namespace ColumnarQuery

theorem tabulateFrom_eq_mapM {α β : Type} {f : Nat → Except Error β} {g : α → Except Error β} {xs : List α}
    {start : Nat} (h : ∀ i (hi : i < xs.length), f (start + i) = g xs[i]) :
    tabulateFrom f xs.length start = xs.mapM g := by
  induction xs generalizing start with
  | nil => rfl
  | cons x xs ih =>
    have hx : f start = g x := h 0 (Nat.succ_pos _)
    have hxs : ∀ i (hi : i < xs.length), f (start + 1 + i) = g xs[i] := by
      intro i hi
      rw [Nat.add_assoc, Nat.add_comm 1]
      exact h (i + 1) (Nat.succ_lt_succ hi)
    rw [List.length_cons, tabulateFrom, hx, ih hxs, List.mapM_cons]

namespace Column

/-! ## Columns of given values -/

theorem ofValues_eq_ok {t : DataType} {vs : List Value} {c : Column} (h : ofValues t vs = .ok c) :
    c.type = t ∧ c.toList = vs := by
  unfold ofValues at h
  split at h
  · cases h
  · cases h
    exact ⟨rfl, rfl⟩

theorem exists_ofValues {t : DataType} {vs : List Value} (h : ∀ v ∈ vs, v.type = t) : ∃ c, ofValues t vs = .ok c := by
  have hnone : vs.find? (fun v => v.type ≠ t) = none := by simpa using h
  unfold ofValues
  split
  · rename_i v hv
    rw [hnone] at hv
    cases hv
  · exact ⟨_, rfl⟩

/-! ## Operations index by index -/

theorem valueAt_of_lt {c : Column} {i : Nat} (h : i < c.toList.length) : c.valueAt i = .ok c.toList[i] := by
  rw [valueAt, get?_eq_getElem?_toList, List.getElem?_eq_getElem h]

theorem zipWith_eq_mapM {f : Value → Value → Except Error Value} {l r : Column} (h : l.length = r.length) :
    zipWith f l r = (l.toList.zip r.toList).mapM fun p => f p.1 p.2 := by
  have hlen : (l.toList.zip r.toList).length = l.length := by
    rw [List.length_zip, length_toList, length_toList, h, Nat.min_self]
  rw [zipWith, tabulate, ← hlen]
  refine tabulateFrom_eq_mapM fun i hi => ?_
  have hl : i < l.toList.length := by rw [length_toList]; omega
  have hr : i < r.toList.length := by rw [length_toList]; omega
  rw [Nat.zero_add, valueAt_of_lt hl, valueAt_of_lt hr, List.getElem_zip, ok_bind, ok_bind]

/-! ## Operators -/

section Guarded
variable {op : BinaryOp} {l r : Column} (hl : l.length = r.length) (ht : l.type = r.type)
  (ha : op.accepts l.type = true)
include hl ht ha

theorem apply_of_guards :
    l.apply op r =
      ((l.toList.zip r.toList).mapM fun p => p.1.apply op p.2) >>= ofValues (op.resultType l.type) := by
  rw [apply, if_neg (not_not.2 hl), if_neg (not_not.2 ht), ha, zipWith_eq_mapM hl]
  rfl

omit hl ha in
theorem type_eq_of_mem_zip {p : Value × Value} (hp : p ∈ l.toList.zip r.toList) : p.1.type = p.2.type := by
  obtain ⟨h₁, h₂⟩ := List.of_mem_zip hp
  rw [type_of_mem_toList h₁, type_of_mem_toList h₂, ht]

omit hl in
theorem types_of_mem_zip {p : Value × Value} (hp : p ∈ l.toList.zip r.toList) :
    p.1.type = l.type ∧ p.1.type = p.2.type ∧ op.accepts p.1.type = true := by
  have ht₁ := type_of_mem_toList (List.of_mem_zip hp).1
  exact ⟨ht₁, type_eq_of_mem_zip ht hp, by rw [ht₁, ha]⟩

omit hl in
theorem types_of_mapM_apply {vs : List Value}
    (h : ((l.toList.zip r.toList).mapM fun p => p.1.apply op p.2) = .ok vs) :
    ∀ v ∈ vs, v.type = op.resultType l.type := by
  intro v hv
  obtain ⟨p, hp, hpv⟩ := exists_of_mem_mapM h hv
  obtain ⟨h₁, h₂, h₃⟩ := types_of_mem_zip ht ha hp
  rw [Value.type_of_apply_eq_ok h₂ h₃ hpv, h₁]

theorem exists_apply {vs : List Value}
    (h : ((l.toList.zip r.toList).mapM fun p => p.1.apply op p.2) = .ok vs) :
    ∃ c, l.apply op r = .ok c ∧ c.type = op.resultType l.type ∧ c.toList = vs := by
  obtain ⟨c, hc⟩ := exists_ofValues (types_of_mapM_apply ht ha h)
  obtain ⟨hct, hcv⟩ := ofValues_eq_ok hc
  exact ⟨c, by rw [apply_of_guards hl ht ha, h, ok_bind, hc], hct, hcv⟩

theorem apply_of_guards_eq_error_iff {e : Error} :
    l.apply op r = .error e ↔ (op.divides = true ∧ ∃ v ∈ r.toList, v.isIntegerZero = true) ∧ e = .divisionByZero := by
  have hone : ∀ p ∈ l.toList.zip r.toList, p.1.apply op p.2 = .error e ↔
      (op.divides = true ∧ p.2.isIntegerZero = true) ∧ e = .divisionByZero := by
    intro p hp
    obtain ⟨-, h₂, h₃⟩ := types_of_mem_zip ht ha hp
    exact Value.apply_eq_error_iff h₂ h₃
  rw [apply_of_guards hl ht ha, bind_eq_error_iff]
  constructor
  · rintro (h | ⟨vs, hvs, h⟩)
    · obtain ⟨p, hreach, hp⟩ := mapM_eq_error_iff.1 h
      obtain ⟨⟨hd, hz⟩, rfl⟩ := (hone p hreach.mem).1 hp
      exact ⟨⟨hd, p.2, (List.of_mem_zip hreach.mem).2, hz⟩, rfl⟩
    · obtain ⟨c, hc⟩ := exists_ofValues (types_of_mapM_apply ht ha hvs)
      rw [h] at hc
      cases hc
  · rintro ⟨⟨hd, v, hv, hz⟩, rfl⟩
    left
    obtain ⟨i, hi, rfl⟩ := List.getElem_of_mem hv
    have hi' : i < l.toList.length := by
      rw [length_toList, hl, ← length_toList]
      exact hi
    have hmem : (l.toList[i], r.toList[i]) ∈ l.toList.zip r.toList := by
      rw [List.mem_iff_getElem]
      exact ⟨i, by rw [List.length_zip]; omega, List.getElem_zip⟩
    cases hm : (l.toList.zip r.toList).mapM fun p => p.1.apply op p.2 with
    | error e =>
      obtain ⟨p, hreach, hp⟩ := mapM_eq_error_iff.1 hm
      obtain ⟨-, h₂, h₃⟩ := types_of_mem_zip ht ha hreach.mem
      rw [((Value.apply_eq_error_iff h₂ h₃).1 hp).2]
    | ok vs =>
      obtain ⟨w, hw⟩ := exists_mapM_eq_ok_iff.1 ⟨vs, hm⟩ _ hmem
      rw [(hone _ hmem).2 ⟨⟨hd, hz⟩, rfl⟩] at hw
      cases hw

end Guarded

variable {op : BinaryOp} {l r : Column}

theorem apply_eq_ok {c : Column} (h : l.apply op r = .ok c) :
    l.length = r.length ∧ l.type = r.type ∧ op.accepts l.type = true ∧ c.type = op.resultType l.type ∧
      ((l.toList.zip r.toList).mapM fun p => p.1.apply op p.2) = .ok c.toList := by
  by_cases hl : l.length = r.length
  · by_cases ht : l.type = r.type
    · by_cases ha : op.accepts l.type = true
      · have h' := h
        rw [apply_of_guards hl ht ha, bind_eq_ok_iff] at h'
        obtain ⟨vs, hvs, hc⟩ := h'
        obtain ⟨hct, rfl⟩ := ofValues_eq_ok hc
        exact ⟨hl, ht, ha, hct, hvs⟩
      · rw [apply, if_neg (not_not.2 hl), if_neg (not_not.2 ht), if_pos (by simpa using ha)] at h
        cases h
    · rw [apply, if_neg (not_not.2 hl), if_pos ht] at h
      cases h
  · rw [apply, if_pos hl] at h
    cases h

theorem length_of_apply_eq_ok {c : Column} (h : l.apply op r = .ok c) : c.length = l.length := by
  obtain ⟨hl, -, -, -, hv⟩ := apply_eq_ok h
  rw [← length_toList, length_of_mapM_eq_ok hv, List.length_zip, length_toList, length_toList, ← hl, Nat.min_self]

/-- Two columns of one length: the types are looked at first, then the operator, then the values. -/
theorem apply_eq_error_iff (hl : l.length = r.length) {e : Error} :
    l.apply op r = .error e ↔
      l.type ≠ r.type ∧ e = .typeMismatch l.type r.type ∨
      (l.type = r.type ∧ op.accepts l.type = false) ∧ e = .unsupported (.operand op l.type) ∨
      (l.type = r.type ∧ op.accepts l.type = true ∧ op.divides = true ∧ ∃ v ∈ r.toList, v.isIntegerZero = true) ∧
        e = .divisionByZero := by
  by_cases ht : l.type = r.type
  · by_cases ha : op.accepts l.type = true
    · rw [apply_of_guards_eq_error_iff hl ht ha]
      simp [ht, ht ▸ ha]
    · rw [Bool.not_eq_true] at ha
      rw [apply, if_neg (not_not.2 hl), if_neg (not_not.2 ht), ha, Bool.not_false, if_pos rfl, Except.error.injEq,
        eq_comm]
      simp [ht]
  · rw [apply, if_neg (not_not.2 hl), if_pos ht, Except.error.injEq, eq_comm]
    simp [ht]

end Column

end ColumnarQuery
