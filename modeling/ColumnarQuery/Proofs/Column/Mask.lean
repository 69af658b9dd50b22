import ColumnarQuery.Proofs.Batch.Rows

/-!
# What a mask keeps

A mask keeps the elements that stand beside its true entries (`retain_eq_picked`). A mask on what another one kept is one
mask on all (`refines_iff`, `retain_refined`).
-/

namespace ColumnarQuery

section Masks
variable {α : Type}

/-! ## One mask -/

/-- The elements that stand beside a true entry of a mask, in order. -/
def picked (mask : List Bool) (xs : List α) : List α :=
  ((xs.zip mask).filter Prod.snd).map Prod.fst

theorem retain_of_nil (xs : List α) : retain [] xs = [] := by
  simp [retain]

theorem retain_eq_picked : ∀ (mask : List Bool) (xs : List α), retain mask xs = picked mask xs
  | [], xs => by rw [retain_of_nil, picked, List.zip_nil_right, List.filter_nil, List.map_nil]
  | true :: mask, [] => rfl
  | false :: mask, [] => rfl
  | true :: mask, x :: xs => by simp [retain, retain_eq_picked mask xs, picked]
  | false :: mask, x :: xs => by simp [retain, retain_eq_picked mask xs, picked]

theorem picked_append_perm {mask : List Bool} {xs : List α} (h : mask.length = xs.length) :
    (picked mask xs ++ picked (mask.map (!·)) xs).Perm xs := by
  have hcomplement : picked (mask.map (!·)) xs = ((xs.zip mask).filter fun p => !p.2).map Prod.fst := by
    simp [picked, List.zip_map_right, List.filter_map, Function.comp_def]
  have hall := (List.filter_append_perm (fun p : α × Bool => p.2) (xs.zip mask)).map Prod.fst
  rw [List.map_append, List.map_fst_zip (Nat.le_of_eq h.symm)] at hall
  rw [hcomplement]
  exact hall

/-! ## A mask on what another one kept -/

/-- A mask is another one whose true entries were replaced, the first by the first entry of a second mask, and so on. -/
structure Refines (mask inner m : List Bool) : Prop where
  length : m.length = mask.length
  kept : ∀ i : Nat, mask[i]? = some true → m[i]? = inner[(mask.take i).count true]?
  dropped : ∀ i : Nat, mask[i]? = some false → m[i]? = some false

def refined : List Bool → List Bool → List Bool
  | [], _ => []
  | false :: mask, inner => false :: refined mask inner
  | true :: mask, [] => false :: refined mask []
  | true :: mask, k :: inner => k :: refined mask inner

theorem retain_refined (mask inner : List Bool) (xs : List α) :
    retain (refined mask inner) xs = retain inner (retain mask xs) := by
  fun_induction refined mask inner generalizing xs with
  | case1 inner => rw [retain_of_nil, retain_nil]
  | case2 mask inner ih =>
    cases xs with
    | nil => simp only [retain_nil]
    | cons x xs => exact ih xs
  | case3 mask ih =>
    cases xs with
    | nil => rfl
    | cons x xs => simpa only [retain, retain_of_nil] using ih xs
  | case4 mask k inner ih =>
    cases xs with
    | nil => simp only [retain_nil]
    | cons x xs => cases k <;> simp only [retain, ih]

section Steps
variable {mask inner m : List Bool} (h : Refines mask inner m)
include h

theorem Refines.cons_false : Refines (false :: mask) inner (false :: m) where
  length := congrArg (· + 1) h.length
  kept i hi := by
    cases i with
    | zero => cases hi
    | succ i => simpa using h.kept i hi
  dropped i hi := by
    cases i with
    | zero => rfl
    | succ i => exact h.dropped i hi

theorem Refines.cons_true (k : Bool) : Refines (true :: mask) (k :: inner) (k :: m) where
  length := congrArg (· + 1) h.length
  kept i hi := by
    cases i with
    | zero => rfl
    | succ i => simpa using h.kept i hi
  dropped i hi := by
    cases i with
    | zero => cases hi
    | succ i => exact h.dropped i hi

end Steps

theorem refines_refined {mask inner : List Bool} (h : inner.length = mask.count true) :
    Refines mask inner (refined mask inner) := by
  fun_induction refined mask inner with
  | case1 inner => exact ⟨rfl, by simp, by simp⟩
  | case2 mask inner ih => exact (ih (by simpa using h)).cons_false
  | case3 mask ih => simp at h
  | case4 mask k inner ih => exact (ih (by simpa using h)).cons_true k

/-- The entries of the two masks leave no choice. -/
theorem refines_iff {mask inner m : List Bool} (h : inner.length = mask.count true) :
    Refines mask inner m ↔ m = refined mask inner := by
  have hrefined := refines_refined h
  refine ⟨fun hm => List.ext_getElem? fun i => ?_, fun hm => hm ▸ hrefined⟩
  cases hi : mask[i]? with
  | none =>
    have hlength := List.getElem?_eq_none_iff.1 hi
    rw [List.getElem?_eq_none (hm.length ▸ hlength), List.getElem?_eq_none (hrefined.length ▸ hlength)]
  | some b =>
    cases b with
    | true => rw [hm.kept i hi, hrefined.kept i hi]
    | false => rw [hm.dropped i hi, hrefined.dropped i hi]

end Masks

/-! ## Masks from columns -/

namespace Column

/-- At which indices a column holds true. -/
def truths (c : Column) : List Bool :=
  c.toList.map (· = .boolean true)

@[simp] theorem length_truths (c : Column) : c.truths.length = c.length := by
  simp [truths]

theorem mask_of_boolean {c : Column} (h : c.type = .boolean) : c.mask = .ok c.truths := by
  rw [mask, if_pos h, truths]
  congr 2
  funext v
  cases v <;> simp [Value.boolean?]

variable {v s : Column}

theorem filterMask_of_length {mask : List Bool} (h : v.length = mask.length) : v.filterMask mask = .ok (v.retain mask) :=
  if_pos h

theorem filter_of_boolean (hs : s.type = .boolean) (hl : v.length = s.length) : v.filter s = .ok (v.retain s.truths) := by
  rw [filter, mask_of_boolean hs, ok_bind, filterMask_of_length (by rw [length_truths, hl])]

/-- The type of the selection is looked at first, then the lengths, and nothing else. -/
theorem filter_eq_error_iff {e : Error} :
    v.filter s = .error e ↔
      s.type ≠ .boolean ∧ e = .typeMismatch .boolean s.type ∨
      (s.type = .boolean ∧ v.length ≠ s.length) ∧ e = .lengthMismatch v.length s.length := by
  by_cases hs : s.type = .boolean
  · by_cases hl : v.length = s.length
    · rw [filter_of_boolean hs hl]
      simp [hs, hl]
    · rw [filter, mask_of_boolean hs, ok_bind, filterMask, length_truths, if_neg hl, Except.error.injEq, eq_comm]
      simp [hs, hl]
  · rw [filter, mask, if_neg hs, error_bind, Except.error.injEq, eq_comm]
    simp [hs]

theorem toList_retain_eq_picked (mask : List Bool) : (v.retain mask).toList = picked mask v.toList := by
  rw [toList_retain, retain_eq_picked]

theorem length_retain_of_length {mask : List Bool} (h : v.length = mask.length) :
    (v.retain mask).length = mask.count true := by
  rw [length_retain, h, List.take_length]

end Column

theorem Batch.rows_retain_eq_picked (mask : List Bool) (b : Batch) : (b.retain mask).rows = picked mask b.rows := by
  rw [rows_retain, retain_eq_picked]

end ColumnarQuery
