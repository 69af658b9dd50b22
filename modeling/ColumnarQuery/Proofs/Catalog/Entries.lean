import Mathlib.Data.String.Basic
import ColumnarQuery.Catalog
import ColumnarQuery.Proofs.Value.Order

/-!
# Sources by name

The names of a catalog ascend, and none is listed twice (`Catalog.Ascending`). A change concerns the source of its name only
(`Catalog.source?_register`, `Catalog.source?_deregister`).
-/

namespace ColumnarQuery

/-! ## Names -/

theorem compareChars_toList_eq_lt_iff {s t : String} : compareChars s.toList t.toList = .lt ↔ s < t := by
  rw [compareChars_eq_lt_iff, String.lt_iff_toList_lt]
  generalize s.toList = cs
  generalize t.toList = ds
  induction cs generalizing ds with
  | nil => cases ds <;> simp
  | cons c cs ih =>
    cases ds with
    | nil => simp
    | cons d ds =>
      have hlt : c.toNat < d.toNat ↔ c < d := Iff.rfl
      have heq : c.toNat = d.toNat ↔ c = d := Char.toNat_inj
      rw [List.map_cons, List.map_cons, List.cons_lt_cons_iff, List.cons_lt_cons_iff, ih, hlt, heq]

theorem compareChars_toList_eq_iff {s t : String} : compareChars s.toList t.toList = .eq ↔ s = t := by
  rw [compareChars_eq_iff, String.toList_inj]

theorem compareChars_toList_eq_gt_iff {s t : String} : compareChars s.toList t.toList = .gt ↔ t < s := by
  rw [← compareChars_swap, Ordering.swap_eq_gt, compareChars_toList_eq_lt_iff]

namespace Catalog

/-! ## Entries -/

section Entries
variable {name other : String} {source : Source} {entries : List (String × Source)}

theorem lookup_cons_eq_ite (entry : String × Source) (entries : List (String × Source)) (name : String) :
    (entry :: entries).lookup name = if name = entry.1 then some entry.2 else entries.lookup name := by
  by_cases h : name = entry.1
  · rw [h, List.lookup_cons_self, if_pos rfl]
  · rw [List.lookup_cons, beq_false_of_ne h, if_neg h]

theorem lookup_insertEntry : (insertEntry name source entries).lookup other =
    if other = name then some source else entries.lookup other := by
  induction entries with
  | nil => exact lookup_cons_eq_ite (name, source) [] other
  | cons entry entries ih =>
    unfold insertEntry
    split
    · exact lookup_cons_eq_ite (name, source) (entry :: entries) other
    · rename_i heq
      rw [compareChars_toList_eq_iff] at heq
      rw [lookup_cons_eq_ite, lookup_cons_eq_ite, ← heq]
      by_cases h : other = name <;> simp [h]
    · rename_i hgt
      rw [compareChars_toList_eq_gt_iff] at hgt
      rw [lookup_cons_eq_ite, lookup_cons_eq_ite, ih]
      by_cases h : other = name
      · rw [h, if_neg hgt.ne', if_pos rfl, if_pos rfl]
      · rw [if_neg h, if_neg h]

theorem lookup_filter : (entries.filter (·.1 ≠ name)).lookup other =
    if other = name then none else entries.lookup other := by
  induction entries with
  | nil => simp
  | cons entry entries ih =>
    by_cases hentry : entry.1 = name
    · rw [List.filter_cons_of_neg (by simpa using hentry), ih, lookup_cons_eq_ite, hentry]
      by_cases h : other = name <;> simp [h]
    · rw [List.filter_cons_of_pos (by simpa using hentry), lookup_cons_eq_ite, lookup_cons_eq_ite, ih]
      by_cases h : other = name
      · rw [h, if_neg (Ne.symm hentry), if_pos rfl, if_pos rfl]
      · rw [if_neg h, if_neg h]

theorem mem_map_fst_iff : name ∈ entries.map Prod.fst ↔ ∃ source, entries.lookup name = some source := by
  induction entries with
  | nil => simp
  | cons entry entries ih =>
    rw [List.map_cons, List.mem_cons, ih, lookup_cons_eq_ite]
    by_cases h : name = entry.1 <;> simp [h]

theorem pairwise_insertEntry (h : (entries.map Prod.fst).Pairwise (· < ·)) :
    ((insertEntry name source entries).map Prod.fst).Pairwise (· < ·) := by
  induction entries with
  | nil => exact List.pairwise_singleton _ _
  | cons entry entries ih =>
    obtain ⟨hfirst, hrest⟩ := List.pairwise_cons.1 h
    unfold insertEntry
    split
    · rename_i hlt
      rw [compareChars_toList_eq_lt_iff] at hlt
      refine List.pairwise_cons.2 ⟨fun n hn => ?_, h⟩
      rcases List.mem_cons.1 hn with rfl | hn
      · exact hlt
      · exact hlt.trans (hfirst n hn)
    · rename_i heq
      rw [compareChars_toList_eq_iff] at heq
      refine List.pairwise_cons.2 ⟨fun n hn => ?_, hrest⟩
      rw [heq]
      exact hfirst n hn
    · rename_i hgt
      rw [compareChars_toList_eq_gt_iff] at hgt
      refine List.pairwise_cons.2 ⟨fun n hn => ?_, ih hrest⟩
      obtain ⟨s, hs⟩ := mem_map_fst_iff.1 hn
      rw [lookup_insertEntry] at hs
      split at hs
      · rename_i heq
        rwa [heq]
      · exact hfirst n (mem_map_fst_iff.2 ⟨s, hs⟩)

end Entries

/-! ## Catalogs -/

def Ascending (c : Catalog) : Prop :=
  c.names.Pairwise (· < ·)

variable {c : Catalog} {name other : String} {source : Source}

theorem mem_names_iff : name ∈ c.names ↔ ∃ source, c.source? name = some source :=
  mem_map_fst_iff

theorem source?_register :
    (c.register name source).source? other = if other = name then some source else c.source? other :=
  lookup_insertEntry

theorem source?_deregister : (c.deregister name).2.source? other = if other = name then none else c.source? other :=
  lookup_filter

theorem names_deregister : (c.deregister name).2.names = c.names.filter (· ≠ name) := by
  show (c.tables.filter (·.1 ≠ name)).map Prod.fst = (c.tables.map Prod.fst).filter (· ≠ name)
  rw [List.filter_map]
  rfl

theorem Ascending.register (h : c.Ascending) (name : String) (source : Source) : (c.register name source).Ascending :=
  pairwise_insertEntry h

theorem Ascending.deregister (h : c.Ascending) (name : String) : (c.deregister name).2.Ascending := by
  unfold Ascending
  rw [names_deregister]
  exact h.filter _

end Catalog

end ColumnarQuery
