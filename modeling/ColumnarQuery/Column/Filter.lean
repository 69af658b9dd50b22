import ColumnarQuery.Column.Basic

/-!
# Filtering a column

`Column.filterMask` and `Column.filter` are what a mask, or a boolean column, keeps of a column of its length. A repeated
value stays one.
-/

namespace ColumnarQuery

/-- The elements at which the mask is true, in order. -/
def retain {α : Type} : List Bool → List α → List α
  | true :: mask, x :: xs => x :: retain mask xs
  | false :: mask, _ :: xs => retain mask xs
  | _, _ => []

theorem mem_of_mem_retain {α : Type} {x : α} {mask : List Bool} {xs : List α} (h : x ∈ retain mask xs) :
    x ∈ xs := by
  fun_induction retain mask xs with
  | case1 mask y xs ih => exact (List.mem_cons.1 h).elim (· ▸ List.mem_cons_self) (List.mem_cons_of_mem _ <| ih ·)
  | case2 mask y xs ih => exact List.mem_cons_of_mem _ (ih h)
  | case3 => simp at h

theorem length_retain {α : Type} (mask : List Bool) (xs : List α) :
    (retain mask xs).length = (mask.take xs.length).count true := by
  fun_induction retain mask xs with
  | case1 mask y xs ih => simp [ih]
  | case2 mask y xs ih => simp [ih]
  | case3 mask xs h₁ h₂ =>
    cases mask with
    | nil => simp
    | cons b mask =>
      cases xs with
      | nil => simp
      | cons x xs => cases b <;> simp_all

theorem retain_replicate {α : Type} (mask : List Bool) (n : Nat) (x : α) :
    retain mask (List.replicate n x) = List.replicate ((mask.take n).count true) x := by
  refine List.eq_replicate_iff.2 ⟨by simp [length_retain], fun y hy => ?_⟩
  exact List.eq_of_mem_replicate (mem_of_mem_retain hy)

namespace Column

def retain (mask : List Bool) : Column → Column
  | array t vs typed =>
    array t (ColumnarQuery.retain mask vs.toList).toArray fun v hv =>
      typed v (Array.mem_toList_iff.1 (mem_of_mem_retain (List.mem_toArray.1 hv)))
  | constant v n => constant v ((mask.take n).count true)

@[simp] theorem toList_retain (mask : List Bool) (c : Column) :
    (c.retain mask).toList = ColumnarQuery.retain mask c.toList := by
  cases c <;> simp [retain, toList, retain_replicate]

@[simp] theorem type_retain (mask : List Bool) (c : Column) : (c.retain mask).type = c.type := by
  cases c <;> rfl

@[simp] theorem length_retain (mask : List Bool) (c : Column) :
    (c.retain mask).length = (mask.take c.length).count true := by
  rw [← length_toList, toList_retain, ColumnarQuery.length_retain, length_toList]

def mask (c : Column) : Except Error (List Bool) :=
  if c.type = .boolean then .ok (c.toList.map fun v => v.boolean? = some true)
  else .error (.typeMismatch .boolean c.type)

/-- What a mask of its length keeps of a column. -/
def filterMask (c : Column) (mask : List Bool) : Except Error Column :=
  if c.length = mask.length then .ok (c.retain mask) else .error (.lengthMismatch c.length mask.length)

def filter (c selection : Column) : Except Error Column := do
  c.filterMask (← selection.mask)

end Column

end ColumnarQuery
