import Mathlib.Data.List.Zip
import ColumnarQuery.Proofs.Column.Outcome
import ColumnarQuery.Proofs.Value.Order

/-!
# Comparisons of columns

Each comparison looks at nothing but how the values stand to each other, index by index (`Column.apply_comparison`). The six
of them fit together on any two columns of one length and type (`Column.coherent`).
-/

namespace ColumnarQuery

/-! ## Comparisons of an order -/

namespace Comparison

def converse : Comparison → Comparison
  | eq => eq
  | ne => ne
  | gt => lt
  | ge => le
  | lt => gt
  | le => ge

theorem holds_converse (c : Comparison) (o : Option Ordering) : c.converse.holds (o.map Ordering.swap) = c.holds o := by
  cases c <;> rcases o with _ | _ | _ | _ <;> rfl

theorem holds_ne (o : Option Ordering) : ne.holds o = !eq.holds o := by
  simp [holds]

theorem holds_none_iff (c : Comparison) : c.holds none = true ↔ c = ne := by
  cases c <;> decide

def ofOrdering : Ordering → Comparison
  | .lt => lt
  | .eq => eq
  | .gt => gt

theorem holds_strict_iff {c : Comparison} {o : Ordering} :
    ((c = lt ∨ c = eq ∨ c = gt) ∧ c.holds (some o) = true) ↔ c = ofOrdering o := by
  cases c <;> cases o <;> decide

end Comparison

namespace Column

/-! ## Boolean columns -/

def ofBools (bs : List Bool) : Column :=
  array .boolean (bs.map Value.boolean).toArray fun v hv => by
    obtain ⟨b, -, rfl⟩ := List.mem_map.1 (List.mem_toArray.1 hv)
    rfl

@[simp] theorem toList_ofBools (bs : List Bool) : (ofBools bs).toList = bs.map Value.boolean := rfl

@[simp] theorem length_ofBools (bs : List Bool) : (ofBools bs).length = bs.length := by
  rw [← length_toList, toList_ofBools, List.length_map]

theorem ofValues_boolean (bs : List Bool) : ofValues .boolean (bs.map Value.boolean) = .ok (ofBools bs) := by
  unfold ofValues
  split
  · rename_i v hv
    obtain ⟨b, -, rfl⟩ := List.mem_map.1 (List.mem_of_find?_eq_some hv)
    have hne := List.find?_some hv
    simp [Value.type] at hne
  · rfl

/-! ## Comparisons and disjunctions -/

/-- How the values of two columns stand to each other, index by index. -/
def orders (l r : Column) : Except Error (List (Option Ordering)) :=
  (l.toList.zip r.toList).mapM fun p => p.1.compare p.2

variable {l r : Column}

section Operands
variable (hl : l.length = r.length) (ht : l.type = r.type)
include ht

theorem exists_orders : ∃ os, orders l r = .ok os :=
  exists_mapM_eq_ok_iff.2 fun _ hp => Value.exists_compare (type_eq_of_mem_zip ht hp)

theorem orders_swap {os : List (Option Ordering)} (h : orders l r = .ok os) :
    orders r l = .ok (os.map (Option.map Ordering.swap)) := by
  unfold orders at h ⊢
  rw [← List.zip_swap, List.mapM_map]
  refine mapM_eq_ok_map_of (fun p hp o ho => ?_) h
  rw [Function.comp_apply, Prod.fst_swap, Prod.snd_swap, ← Value.compare_swap (type_eq_of_mem_zip ht hp), ho, map_ok]

include hl

/-- A comparison of columns looks at the orders of their values only. -/
theorem apply_comparison {os : List (Option Ordering)} (h : orders l r = .ok os) (c : Comparison) :
    l.apply (.comparison c) r = .ok (ofBools (os.map c.holds)) := by
  have hvalues : ((l.toList.zip r.toList).mapM fun p => p.1.apply (.comparison c) p.2) =
      .ok (os.map fun o => .boolean (c.holds o)) := by
    refine mapM_eq_ok_map_of (fun p _ o ho => ?_) h
    rw [Value.apply, ho, ok_bind, pure_eq_ok]
  rw [apply_of_guards hl ht rfl, hvalues, ok_bind, ← ofValues_boolean, List.map_map]
  rfl

end Operands

theorem apply_or {ps qs : List Bool} (h : ps.length = qs.length) :
    (ofBools ps).apply (.connective .or) (ofBools qs) = .ok (ofBools (List.zipWith (· || ·) ps qs)) := by
  have hvalues : ((ofBools ps).toList.zip (ofBools qs).toList).mapM (fun p => p.1.apply (.connective .or) p.2) =
      .ok ((List.zipWith (· || ·) ps qs).map Value.boolean) := by
    rw [toList_ofBools, toList_ofBools, List.zip_map, List.mapM_map, ← List.map_uncurry_zip_eq_zipWith, List.map_map]
    exact mapM_eq_ok_map fun p _ => rfl
  have hl : (ofBools ps).length = (ofBools qs).length := by simpa using h
  rw [apply_of_guards hl rfl rfl, hvalues, ok_bind]
  exact ofValues_boolean _

section Operands
variable (hl : l.length = r.length) (ht : l.type = r.type)
include hl ht

theorem apply_converse (c : Comparison) : l.apply (.comparison c) r = r.apply (.comparison c.converse) l := by
  obtain ⟨os, hos⟩ := exists_orders ht
  rw [apply_comparison hl ht hos, apply_comparison hl.symm ht.symm (orders_swap ht hos), List.map_map]
  congr 3
  exact funext fun o => (c.holds_converse o).symm

theorem apply_comparison_eq_or {weak strict : Comparison}
    (h : ∀ o, weak.holds o = (strict.holds o || Comparison.eq.holds o)) :
    l.apply (.comparison weak) r =
      (do (← l.apply (.comparison strict) r).apply (.connective .or) (← l.apply (.comparison .eq) r)) := by
  obtain ⟨os, hos⟩ := exists_orders ht
  have hlengths : (os.map strict.holds).length = (os.map Comparison.eq.holds).length := by simp
  simp only [apply_comparison hl ht hos, ok_bind, apply_or hlengths, List.zipWith_map, List.zipWith_self, funext h]

end Operands

/-! ## Comparisons at an index -/

/-- A comparison of two columns has an answer, which is true at an index. -/
def HoldsAt (c : Comparison) (l r : Column) (i : Nat) : Prop :=
  ∃ k, l.apply (.comparison c) r = .ok k ∧ k.valueAt i = .ok (.boolean true)

section Index
variable {i : Nat} {a b : Value}

theorem type_eq_of_valueAt (ht : l.type = r.type) (ha : l.valueAt i = .ok a) (hb : r.valueAt i = .ok b) :
    a.type = b.type := by
  rw [type_of_valueAt ha, type_of_valueAt hb, ht]

theorem holdsAt_iff (hl : l.length = r.length) (ht : l.type = r.type) (ha : l.valueAt i = .ok a)
    (hb : r.valueAt i = .ok b) {o : Option Ordering} (ho : a.compare b = .ok o) {c : Comparison} :
    HoldsAt c l r i ↔ c.holds o = true := by
  obtain ⟨os, hos⟩ := exists_orders ht
  have hanswer := apply_comparison hl ht hos c
  have hvalue := valueAt_of_apply hanswer ha hb
  rw [Value.apply, ho, ok_bind, pure_eq_ok] at hvalue
  unfold HoldsAt
  rw [hanswer]
  simp [hvalue]

end Index

/-- The six comparisons of two columns fit together. -/
structure Coherent (l r : Column) : Prop where
  answers (c : Comparison) : ∃ k, l.apply (.comparison c) r = .ok k ∧ k.type = .boolean ∧ k.length = l.length
  ne_iff {i : Nat} (hi : i < l.length) : HoldsAt .ne l r i ↔ ¬ HoldsAt .eq l r i
  converse (c : Comparison) : l.apply (.comparison c) r = r.apply (.comparison c.converse) l
  ge_or : l.apply (.comparison .ge) r =
    (do (← l.apply (.comparison .gt) r).apply (.connective .or) (← l.apply (.comparison .eq) r))
  le_or : l.apply (.comparison .le) r =
    (do (← l.apply (.comparison .lt) r).apply (.connective .or) (← l.apply (.comparison .eq) r))
  ordered {i : Nat} {a b : Value} (ha : l.valueAt i = .ok a) (hb : r.valueAt i = .ok b)
    (hnan : ¬ (a.isNaN = true ∨ b.isNaN = true)) : ∃! c, (c = .lt ∨ c = .eq ∨ c = .gt) ∧ HoldsAt c l r i
  unordered {i : Nat} {a b : Value} (ha : l.valueAt i = .ok a) (hb : r.valueAt i = .ok b)
    (hnan : a.isNaN = true ∨ b.isNaN = true) (c : Comparison) : HoldsAt c l r i ↔ c = .ne
  eq_iff (hf : l.type.isFloating = false) {i : Nat} {a b : Value} (ha : l.valueAt i = .ok a)
    (hb : r.valueAt i = .ok b) : HoldsAt .eq l r i ↔ a = b
  lt_iff (hf : l.type.isFloating = false) {i : Nat} {a b : Value} (ha : l.valueAt i = .ok a)
    (hb : r.valueAt i = .ok b) : HoldsAt .lt l r i ↔ a.Before b

theorem coherent (hl : l.length = r.length) (ht : l.type = r.type) : Coherent l r where
  answers c := by
    obtain ⟨os, hos⟩ := exists_orders ht
    have hanswer := apply_comparison hl ht hos c
    exact ⟨_, hanswer, rfl, length_of_apply_eq_ok hanswer⟩
  ne_iff hi := by
    obtain ⟨a, ha, -⟩ := exists_valueAt hi
    obtain ⟨b, hb, -⟩ := exists_valueAt (c := r) (hl ▸ hi)
    obtain ⟨o, ho⟩ := Value.exists_compare (type_eq_of_valueAt ht ha hb)
    rw [holdsAt_iff hl ht ha hb ho, holdsAt_iff hl ht ha hb ho, Comparison.holds_ne]
    simp
  converse := apply_converse hl ht
  ge_or := apply_comparison_eq_or hl ht fun _ => rfl
  le_or := apply_comparison_eq_or hl ht fun _ => rfl
  ordered ha hb hnan := by
    have htypes := type_eq_of_valueAt ht ha hb
    obtain ⟨o, ho⟩ := Value.exists_compare htypes
    cases o with
    | none => exact absurd ((Value.compare_eq_none_iff htypes).1 ho) hnan
    | some o =>
      simp only [holdsAt_iff hl ht ha hb ho, Comparison.holds_strict_iff]
      exact existsUnique_eq
  unordered ha hb hnan c := by
    have ho := (Value.compare_eq_none_iff (type_eq_of_valueAt ht ha hb)).2 hnan
    rw [holdsAt_iff hl ht ha hb ho, Comparison.holds_none_iff]
  eq_iff hf _ _ _ ha hb := by
    obtain ⟨o, ho, heq, -⟩ := Value.compare_ordered (type_eq_of_valueAt ht ha hb) (type_of_valueAt ha ▸ hf)
    rw [holdsAt_iff hl ht ha hb ho, ← heq]
    simp [Comparison.holds]
  lt_iff hf _ _ _ ha hb := by
    obtain ⟨o, ho, -, hlt⟩ := Value.compare_ordered (type_eq_of_valueAt ht ha hb) (type_of_valueAt ha ▸ hf)
    rw [holdsAt_iff hl ht ha hb ho, ← hlt]
    simp [Comparison.holds]

end Column

end ColumnarQuery
