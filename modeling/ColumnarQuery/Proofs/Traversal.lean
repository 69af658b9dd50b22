import Mathlib.Data.List.Forall2

/-!
# Traversals that may fail

A traversal succeeds with the answers of its elements, one by one (`mapM_eq_ok_iff`), and fails with the first failure, after
successes only (`mapM_eq_error_iff`). `rowsOf` are the rows of columns of one length, and `mapM_mapM_eq_ok_iff` exchanges a
traversal of rows with one of columns.
-/

namespace ColumnarQuery

section Sequence
variable {ε α β γ : Type}

@[simp] theorem ok_bind (a : α) (f : α → Except ε β) : (Except.ok a >>= f) = f a := rfl

@[simp] theorem error_bind (e : ε) (f : α → Except ε β) : ((Except.error e : Except ε α) >>= f) = .error e := rfl

@[simp] theorem map_ok (f : α → β) (a : α) : f <$> (Except.ok a : Except ε α) = .ok (f a) := rfl

@[simp] theorem map_error (f : α → β) (e : ε) : f <$> (Except.error e : Except ε α) = .error e := rfl

@[simp] theorem pure_eq_ok (a : α) : (pure a : Except ε α) = .ok a := rfl

theorem bind_eq_ok_iff {x : Except ε α} {f : α → Except ε β} {b : β} :
    x >>= f = .ok b ↔ ∃ a, x = .ok a ∧ f a = .ok b := by
  cases x <;> simp

theorem bind_eq_error_iff {x : Except ε α} {f : α → Except ε β} {e : ε} :
    x >>= f = .error e ↔ x = .error e ∨ ∃ a, x = .ok a ∧ f a = .error e := by
  cases x <;> simp

theorem map_eq_ok_iff {x : Except ε α} {f : α → β} {b : β} : f <$> x = .ok b ↔ ∃ a, x = .ok a ∧ f a = b := by
  cases x <;> simp

theorem map_eq_error_iff {x : Except ε α} {f : α → β} {e : ε} : f <$> x = .error e ↔ x = .error e := by
  cases x <;> simp

end Sequence

/-! ## Traversals of a list -/

section Traversal
variable {ε α β γ δ : Type} {f : α → Except ε β}

theorem mapM_eq_ok_iff {xs : List α} {ys : List β} :
    xs.mapM f = .ok ys ↔ List.Forall₂ (fun x y => f x = .ok y) xs ys := by
  induction xs generalizing ys with
  | nil =>
    rw [List.mapM_nil, List.forall₂_nil_left_iff, pure_eq_ok, Except.ok.injEq, eq_comm]
  | cons x xs ih =>
    simp only [List.mapM_cons, bind_eq_ok_iff, pure_eq_ok, Except.ok.injEq, List.forall₂_cons_left_iff, ih]
    constructor
    · rintro ⟨y, hy, zs, hzs, rfl⟩
      exact ⟨y, zs, hy, hzs, rfl⟩
    · rintro ⟨y, zs, hy, hzs, rfl⟩
      exact ⟨y, hy, zs, hzs, rfl⟩

theorem length_of_mapM_eq_ok {xs : List α} {ys : List β} (h : xs.mapM f = .ok ys) : ys.length = xs.length :=
  (mapM_eq_ok_iff.1 h).length_eq.symm

theorem mapM_append_eq_ok_iff {xs ys : List α} {zs : List β} :
    (xs ++ ys).mapM f = .ok zs ↔ ∃ us vs, xs.mapM f = .ok us ∧ ys.mapM f = .ok vs ∧ zs = us ++ vs := by
  rw [List.mapM_append, bind_eq_ok_iff]
  simp only [bind_eq_ok_iff, pure_eq_ok, Except.ok.injEq]
  constructor
  · intro h
    obtain ⟨us, hus, vs, hvs, rfl⟩ := h
    exact ⟨us, vs, hus, hvs, rfl⟩
  · intro h
    obtain ⟨us, vs, hus, hvs, rfl⟩ := h
    exact ⟨us, hus, vs, hvs, rfl⟩

theorem mapM_const (xs : List α) (y : β) :
    xs.mapM (fun _ => (.ok y : Except ε β)) = .ok (List.replicate xs.length y) := by
  rw [← List.map_const']
  exact List.mapM_pure

theorem mapM_take {xs : List α} {ys : List β} (h : xs.mapM f = .ok ys) (n : Nat) :
    (xs.take n).mapM f = .ok (ys.take n) :=
  mapM_eq_ok_iff.2 (List.forall₂_take n (mapM_eq_ok_iff.1 h))

theorem exists_mapM_eq_ok_iff {xs : List α} : (∃ ys, xs.mapM f = .ok ys) ↔ ∀ x ∈ xs, ∃ y, f x = .ok y := by
  induction xs with
  | nil => simp
  | cons x xs ih =>
    rw [List.forall_mem_cons, ← ih]
    simp only [List.mapM_cons, bind_eq_ok_iff, pure_eq_ok, Except.ok.injEq]
    constructor
    · rintro ⟨_, y, hy, ys, hys, rfl⟩
      exact ⟨⟨y, hy⟩, ys, hys⟩
    · rintro ⟨⟨y, hy⟩, ys, hys⟩
      exact ⟨y :: ys, y, hy, ys, hys, rfl⟩

theorem exists_getElem?_of_forall₂ {R : α → β → Prop} {xs : List α} {ys : List β} {i : Nat} {x : α}
    (h : List.Forall₂ R xs ys) (hx : xs[i]? = some x) : ∃ y, ys[i]? = some y ∧ R x y := by
  obtain ⟨hi, rfl⟩ := List.getElem?_eq_some_iff.1 hx
  obtain ⟨hlength, hall⟩ := List.forall₂_iff_get.1 h
  exact ⟨_, List.getElem?_eq_getElem (hlength ▸ hi), hall i hi (hlength ▸ hi)⟩

theorem exists_mem_of_forall₂ {R : α → β → Prop} {xs : List α} {ys : List β} {x : α} (h : List.Forall₂ R xs ys)
    (hx : x ∈ xs) : ∃ y ∈ ys, R x y := by
  obtain ⟨i, hi⟩ := List.getElem?_of_mem hx
  obtain ⟨y, hy, hxy⟩ := exists_getElem?_of_forall₂ h hi
  exact ⟨y, List.mem_of_getElem? hy, hxy⟩

theorem forall₂_of_forall₂ {R : α → β → Prop} {S : α → γ → Prop} {T : β → γ → Prop} {xs : List α} {ys : List β}
    {zs : List γ} (hy : List.Forall₂ R xs ys) (hz : List.Forall₂ S xs zs) (h : ∀ x y z, R x y → S x z → T y z) :
    List.Forall₂ T ys zs := by
  induction hy generalizing zs with
  | nil =>
    cases hz
    exact .nil
  | cons hxy _ ih =>
    cases hz with
    | cons hxz hz => exact .cons (h _ _ _ hxy hxz) (ih hz)

theorem exists_of_map_eq_map_some {f : α → Option β} {xs : List α} {ys : List β} (h : xs.map f = ys.map some) :
    ∀ x ∈ xs, ∃ y, f x = some y := by
  intro x hx
  have hmem : f x ∈ ys.map some := by
    rw [← h]
    exact List.mem_map_of_mem hx
  obtain ⟨y, -, hy⟩ := List.mem_map.1 hmem
  exact ⟨y, hy.symm⟩

theorem exists_of_mem_mapM {xs : List α} {ys : List β} {y : β} (h : xs.mapM f = .ok ys) (hy : y ∈ ys) :
    ∃ x ∈ xs, f x = .ok y := by
  exact exists_mem_of_forall₂ (mapM_eq_ok_iff.1 h).flip hy

theorem mem_of_mapM_eq_ok {xs : List α} {ys : List β} {x : α} {y : β} (h : xs.mapM f = .ok ys) (hx : x ∈ xs)
    (hy : f x = .ok y) : y ∈ ys := by
  obtain ⟨z, hz, hxz⟩ := exists_mem_of_forall₂ (mapM_eq_ok_iff.1 h) hx
  rw [hy, Except.ok.injEq] at hxz
  rwa [hxz]

/-- A traversal succeeds on all that stands before an element. -/
def Reaches (f : α → Except ε β) (xs : List α) (x : α) : Prop :=
  ∃ before after ys, xs = before ++ x :: after ∧ before.mapM f = .ok ys

/-- A fold succeeds on all that stands before an element, where it has come to `s`. -/
def FoldReaches (step : γ → α → Except ε γ) (start : γ) (xs : List α) (s : γ) (x : α) : Prop :=
  ∃ before after, xs = before ++ x :: after ∧ before.foldlM step start = .ok s

theorem Reaches.mem {xs : List α} {x : α} (h : Reaches f xs x) : x ∈ xs := by
  obtain ⟨before, after, ys, rfl, -⟩ := h
  exact List.mem_append_right before List.mem_cons_self

theorem FoldReaches.mem {step : γ → α → Except ε γ} {start s : γ} {xs : List α} {x : α}
    (h : FoldReaches step start xs s x) : x ∈ xs := by
  obtain ⟨before, after, rfl, -⟩ := h
  exact List.mem_append_right before List.mem_cons_self

/-- A traversal fails with its first failure. -/
theorem mapM_eq_error_iff {xs : List α} {e : ε} : xs.mapM f = .error e ↔ ∃ x, Reaches f xs x ∧ f x = .error e := by
  constructor
  · intro h
    induction xs with
    | nil => cases h
    | cons x xs ih =>
      rw [List.mapM_cons, bind_eq_error_iff] at h
      rcases h with hx | ⟨y, hy, h⟩
      · exact ⟨x, ⟨[], xs, [], rfl, rfl⟩, hx⟩
      · rw [bind_eq_error_iff] at h
        rcases h with hxs | ⟨_, _, h⟩
        · obtain ⟨z, ⟨before, after, ys, rfl, hys⟩, hz⟩ := ih hxs
          refine ⟨z, ⟨x :: before, after, y :: ys, rfl, ?_⟩, hz⟩
          rw [List.mapM_cons, hy, ok_bind, hys, ok_bind, pure_eq_ok]
        · cases h
  · intro h
    obtain ⟨x, ⟨before, after, ys, rfl, hys⟩, hx⟩ := h
    rw [List.mapM_append, hys, ok_bind, List.mapM_cons, hx, error_bind, error_bind]

theorem foldlM_eq_error_iff {step : γ → α → Except ε γ} {xs : List α} {start : γ} {e : ε} :
    xs.foldlM step start = .error e ↔ ∃ s x, FoldReaches step start xs s x ∧ step s x = .error e := by
  constructor
  · intro h
    induction xs generalizing start with
    | nil => cases h
    | cons x xs ih =>
      rw [List.foldlM_cons, bind_eq_error_iff] at h
      rcases h with hx | ⟨s, hs, h⟩
      · exact ⟨start, x, ⟨[], xs, rfl, rfl⟩, hx⟩
      · obtain ⟨t, z, ⟨before, after, rfl, ht⟩, hz⟩ := ih h
        refine ⟨t, z, ⟨x :: before, after, rfl, ?_⟩, hz⟩
        rw [List.foldlM_cons, hs, ok_bind, ht]
  · intro h
    obtain ⟨s, x, ⟨before, after, rfl, hs⟩, hx⟩ := h
    rw [List.foldlM_append, hs, ok_bind, List.foldlM_cons, hx, error_bind]

/-- What a step keeps, a fold that succeeds keeps. -/
theorem foldlM_invariant {step : γ → α → Except ε γ} {P : γ → Prop} {xs : List α} {start s : γ}
    (hstep : ∀ x ∈ xs, ∀ s t, P s → step s x = .ok t → P t) (h : P start) (hs : xs.foldlM step start = .ok s) :
    P s := by
  induction xs generalizing start with
  | nil =>
    cases hs
    exact h
  | cons x xs ih =>
    rw [List.forall_mem_cons] at hstep
    rw [List.foldlM_cons] at hs
    obtain ⟨t, ht, hs⟩ := bind_eq_ok_iff.1 hs
    exact ih hstep.2 (hstep.1 start t h ht) hs

theorem mapM_congr₂ {g : γ → Except ε β} {xs : List α} {zs : List γ}
    (h : List.Forall₂ (fun x z => f x = g z) xs zs) : xs.mapM f = zs.mapM g := by
  induction h with
  | nil => rfl
  | cons hx _ ih => rw [List.mapM_cons, List.mapM_cons, hx, ih]

theorem mapM_congr {g : α → Except ε β} {xs : List α} (h : ∀ x ∈ xs, f x = g x) : xs.mapM f = xs.mapM g :=
  mapM_congr₂ (List.forall₂_same.2 h)

theorem mapM_eq_ok_map {g : α → β} {xs : List α} (h : ∀ x ∈ xs, f x = .ok (g x)) : xs.mapM f = .ok (xs.map g) := by
  rw [mapM_congr h]
  exact List.mapM_pure

/-- Traversals with the same answers at each place have the same answers; their failures may differ. -/
theorem mapM_eq_ok_congr₂ {g : γ → Except ε β} {xs : List α} {zs : List γ} {ys : List β}
    (h : List.Forall₂ (fun x z => ∀ y, f x = .ok y ↔ g z = .ok y) xs zs) :
    xs.mapM f = .ok ys ↔ zs.mapM g = .ok ys := by
  induction h generalizing ys with
  | nil => rfl
  | cons hx _ ih => simp only [List.mapM_cons, bind_eq_ok_iff, hx, ih]

theorem mapM_eq_ok_congr {g : α → Except ε β} {xs : List α} {ys : List β}
    (h : ∀ x ∈ xs, ∀ y, f x = .ok y ↔ g x = .ok y) : xs.mapM f = .ok ys ↔ xs.mapM g = .ok ys :=
  mapM_eq_ok_congr₂ (List.forall₂_same.2 h)

/-- A traversal that succeeds wherever another does, with answers related to those of the other. -/
theorem exists_mapM_forall₂ {g : α → Except ε γ} {R : β → γ → Prop} {xs : List α} {ys : List β}
    (h : ∀ x ∈ xs, ∀ y, f x = .ok y → ∃ z, g x = .ok z ∧ R y z) (hf : xs.mapM f = .ok ys) :
    ∃ zs, xs.mapM g = .ok zs ∧ List.Forall₂ R ys zs := by
  rw [mapM_eq_ok_iff] at hf
  induction hf with
  | nil => exact ⟨[], rfl, .nil⟩
  | cons hxy _ ih =>
    rw [List.forall_mem_cons] at h
    obtain ⟨z, hz, hyz⟩ := h.1 _ hxy
    obtain ⟨zs, hzs, hall⟩ := ih h.2
    exact ⟨z :: zs, by rw [List.mapM_cons, hz, ok_bind, hzs, ok_bind, pure_eq_ok], .cons hyz hall⟩

theorem mapM_eq_ok_imp {g : α → Except ε β} {xs : List α} {ys : List β}
    (h : ∀ x ∈ xs, ∀ y, f x = .ok y → g x = .ok y) (hf : xs.mapM f = .ok ys) : xs.mapM g = .ok ys := by
  obtain ⟨zs, hzs, hall⟩ := exists_mapM_forall₂ (R := Eq) (fun x hx y hy => ⟨y, h x hx y hy, rfl⟩) hf
  rw [List.forall₂_eq_eq_eq] at hall
  rw [hzs, hall]

theorem mapM_eq_ok_map_of {g : α → Except ε γ} {h : β → γ} {xs : List α} {ys : List β}
    (hg : ∀ x ∈ xs, ∀ y, f x = .ok y → g x = .ok (h y)) (hf : xs.mapM f = .ok ys) : xs.mapM g = .ok (ys.map h) := by
  obtain ⟨zs, hzs, hall⟩ := exists_mapM_forall₂ (R := fun y z => h y = z) (fun x hx y hy => ⟨h y, hg x hx y hy, rfl⟩) hf
  rw [← List.forall₂_map_left_iff (R := Eq), List.forall₂_eq_eq_eq] at hall
  rw [hzs, hall]

/-- A traversal in another order has the same answers, each at its element. -/
theorem exists_mapM_zip_perm {xs ys : List α} {us : List β} (h : xs.Perm ys) (hf : xs.mapM f = .ok us) :
    ∃ vs, ys.mapM f = .ok vs ∧ (us.zip xs).Perm (vs.zip ys) := by
  induction h generalizing us with
  | nil => exact ⟨us, hf, .refl _⟩
  | cons x _ ih =>
    rw [List.mapM_cons] at hf
    obtain ⟨u, hu, hf⟩ := bind_eq_ok_iff.1 hf
    obtain ⟨us, hus, hf⟩ := bind_eq_ok_iff.1 hf
    cases hf
    obtain ⟨vs, hvs, hperm⟩ := ih hus
    exact ⟨u :: vs, by rw [List.mapM_cons, hu, ok_bind, hvs, ok_bind, pure_eq_ok], hperm.cons (u, x)⟩
  | swap x y xs =>
    simp only [List.mapM_cons, bind_eq_ok_iff, pure_eq_ok, Except.ok.injEq] at hf
    obtain ⟨v, hv, _, ⟨u, hu, us, hus, rfl⟩, rfl⟩ := hf
    refine ⟨u :: v :: us, ?_, .swap (u, x) (v, y) (us.zip xs)⟩
    rw [List.mapM_cons, hu, ok_bind, List.mapM_cons, hv, ok_bind, hus, ok_bind, pure_eq_ok, ok_bind, pure_eq_ok]
  | trans _ _ ih₁ ih₂ =>
    obtain ⟨vs, hvs, hperm₁⟩ := ih₁ hf
    obtain ⟨ws, hws, hperm₂⟩ := ih₂ hvs
    exact ⟨ws, hws, hperm₁.trans hperm₂⟩

theorem exists_mapM_perm {xs ys : List α} {us : List β} (h : xs.Perm ys) (hf : xs.mapM f = .ok us) :
    ∃ vs, ys.mapM f = .ok vs ∧ us.Perm vs := by
  obtain ⟨vs, hvs, hperm⟩ := exists_mapM_zip_perm h hf
  have hfst := hperm.map Prod.fst
  rw [List.map_fst_zip (Nat.le_of_eq (length_of_mapM_eq_ok hf)),
    List.map_fst_zip (Nat.le_of_eq (length_of_mapM_eq_ok hvs))] at hfst
  exact ⟨vs, hvs, hfst⟩

/-- Two traversals, one of the answers of the other, are one. -/
theorem mapM_bind_eq_ok_iff {g : β → Except ε γ} {xs : List α} {zs : List γ} :
    (xs.mapM fun x => f x >>= g) = .ok zs ↔ ∃ ys, xs.mapM f = .ok ys ∧ ys.mapM g = .ok zs := by
  induction xs generalizing zs with
  | nil =>
    constructor
    · intro h
      exact ⟨[], rfl, h⟩
    · intro h
      obtain ⟨_, hys, hzs⟩ := h
      cases hys
      exact hzs
  | cons x xs ih =>
    simp only [List.mapM_cons, bind_eq_ok_iff, pure_eq_ok, Except.ok.injEq] at ih ⊢
    constructor
    · intro h
      obtain ⟨z, ⟨y, hy, hz⟩, zs, hzs, rfl⟩ := h
      obtain ⟨ys, hys, hzs⟩ := ih.1 hzs
      refine ⟨y :: ys, ⟨y, hy, ys, hys, rfl⟩, ?_⟩
      rw [List.mapM_cons, hz, ok_bind, hzs, ok_bind, pure_eq_ok]
    · intro h
      obtain ⟨_, ⟨y, hy, ys, hys, rfl⟩, h⟩ := h
      rw [List.mapM_cons] at h
      obtain ⟨z, hz, h⟩ := bind_eq_ok_iff.1 h
      obtain ⟨zs, hzs, h⟩ := bind_eq_ok_iff.1 h
      exact ⟨z, ⟨y, hy, hz⟩, zs, ih.2 ⟨ys, hys, hzs⟩, Except.ok.inj h⟩

/-- A traversal with two answers per element, which are then combined. -/
theorem mapM_bind₂_eq_ok_iff {g : α → Except ε γ} {h : β → γ → Except ε δ} {xs : List α} {ws : List δ} :
    xs.mapM (fun x => do h (← f x) (← g x)) = .ok ws ↔
      ∃ ys zs, xs.mapM f = .ok ys ∧ xs.mapM g = .ok zs ∧ (ys.zip zs).mapM (fun p => h p.1 p.2) = .ok ws := by
  induction xs generalizing ws with
  | nil =>
    constructor
    · rintro h
      cases h
      exact ⟨[], [], rfl, rfl, rfl⟩
    · rintro ⟨_, _, hys, hzs, hws⟩
      cases hys
      cases hzs
      exact hws
  | cons x xs ih =>
    simp only [List.mapM_cons, bind_eq_ok_iff, pure_eq_ok, Except.ok.injEq] at ih ⊢
    constructor
    · rintro ⟨w, ⟨y, hy, z, hz, hw⟩, ws, hws, rfl⟩
      obtain ⟨ys, zs, hys, hzs, hws⟩ := ih.1 hws
      refine ⟨y :: ys, z :: zs, ⟨y, hy, ys, hys, rfl⟩, ⟨z, hz, zs, hzs, rfl⟩, ?_⟩
      rw [List.zip_cons_cons, List.mapM_cons, hw, ok_bind, hws, ok_bind, pure_eq_ok]
    · rintro ⟨_, _, ⟨y, hy, ys, hys, rfl⟩, ⟨z, hz, zs, hzs, rfl⟩, h⟩
      rw [List.zip_cons_cons, List.mapM_cons, bind_eq_ok_iff] at h
      obtain ⟨w, hw, h⟩ := h
      obtain ⟨ws, hws, h⟩ := bind_eq_ok_iff.1 h
      exact ⟨w, ⟨y, hy, z, hz, hw⟩, ws, ih.2 ⟨ys, zs, hys, hzs, hws⟩, Except.ok.inj h⟩

end Traversal

/-! ## Rows and columns -/

section Transposition
variable {ε α β : Type}

/-- The rows of `n` values per column: the first column in front of the rows of the others. -/
def rowsOf (n : Nat) : List (List α) → List (List α)
  | [] => List.replicate n []
  | column :: columns => List.zipWith List.cons column (rowsOf n columns)

theorem length_rowsOf {n : Nat} {columns : List (List α)} (h : ∀ c ∈ columns, c.length = n) :
    (rowsOf n columns).length = n := by
  induction columns with
  | nil => exact List.length_replicate
  | cons c cs ih =>
    rw [List.forall_mem_cons] at h
    rw [rowsOf, List.length_zipWith, h.1, ih h.2, Nat.min_self]

theorem getElem?_rowsOf {n i : Nat} {columns : List (List α)} (h : ∀ c ∈ columns, c.length = n) (hi : i < n) :
    (rowsOf n columns)[i]? = some (columns.filterMap (·[i]?)) := by
  induction columns with
  | nil => simp [rowsOf, hi]
  | cons column columns ih =>
    rw [List.forall_mem_cons] at h
    have hc : column[i]? = some column[i] := List.getElem?_eq_getElem (h.1.symm ▸ hi)
    rw [rowsOf, List.getElem?_zipWith, ih h.2, hc, List.filterMap_cons, hc]

theorem forall₂_zipWith_cons_iff {xs : List α} {f : α → β → Prop} {g : α → List β → Prop} {rows : List (List β)} :
    List.Forall₂ (fun x row => ∃ v vs, f x v ∧ g x vs ∧ row = v :: vs) xs rows ↔
      ∃ ys zs, List.Forall₂ f xs ys ∧ List.Forall₂ g xs zs ∧ rows = List.zipWith List.cons ys zs := by
  induction xs generalizing rows with
  | nil => simp
  | cons x xs ih =>
    simp only [List.forall₂_cons_left_iff, ih]
    constructor
    · rintro ⟨_, _, ⟨v, vs, hv, hvs, rfl⟩, ⟨ys, zs, hys, hzs, rfl⟩, rfl⟩
      exact ⟨v :: ys, vs :: zs, ⟨v, ys, hv, hys, rfl⟩, ⟨vs, zs, hvs, hzs, rfl⟩, rfl⟩
    · rintro ⟨_, _, ⟨v, ys, hv, hys, rfl⟩, ⟨vs, zs, hvs, hzs, rfl⟩, rfl⟩
      exact ⟨v :: vs, _, ⟨v, vs, hv, hvs, rfl⟩, ⟨ys, zs, hys, hzs, rfl⟩, rfl⟩

/-- Each row is computed by all functions exactly if each column is computed by its function. -/
theorem mapM_mapM_eq_ok_iff {ι : Type} {f : ι → α → Except ε β} {is : List ι} {xs : List α} {rows : List (List β)} :
    xs.mapM (fun x => is.mapM (f · x)) = .ok rows ↔
      ∃ columns, List.Forall₂ (fun i column => xs.mapM (f i) = .ok column) is columns ∧
        rows = rowsOf xs.length columns := by
  induction is generalizing rows with
  | nil =>
    have hnil : xs.mapM (fun x => ([] : List ι).mapM (f · x)) = .ok (List.replicate xs.length []) := mapM_const xs []
    rw [hnil]
    simp [rowsOf, eq_comm]
  | cons i is ih =>
    have hrow : ∀ x row, (i :: is).mapM (f · x) = .ok row ↔
        ∃ v vs, f i x = .ok v ∧ is.mapM (f · x) = .ok vs ∧ row = v :: vs := by
      intro x row
      simp only [List.mapM_cons, bind_eq_ok_iff, pure_eq_ok, Except.ok.injEq]
      constructor
      · rintro ⟨v, hv, vs, hvs, rfl⟩
        exact ⟨v, vs, hv, hvs, rfl⟩
      · rintro ⟨v, vs, hv, hvs, rfl⟩
        exact ⟨v, hv, vs, hvs, rfl⟩
    simp only [mapM_eq_ok_iff, hrow] at ih ⊢
    rw [forall₂_zipWith_cons_iff]
    simp only [List.forall₂_cons_left_iff, ih]
    constructor
    · rintro ⟨ys, _, hys, ⟨columns, hcolumns, rfl⟩, rfl⟩
      exact ⟨ys :: columns, ⟨ys, columns, hys, hcolumns, rfl⟩, rfl⟩
    · rintro ⟨_, ⟨ys, columns, hys, hcolumns, rfl⟩, rfl⟩
      exact ⟨ys, _, hys, ⟨columns, hcolumns, rfl⟩, rfl⟩

end Transposition

end ColumnarQuery
