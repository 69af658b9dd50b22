import ColumnarQuery.Error
import ColumnarQuery.Proofs.Traversal

/-!
# Computations that index lists

An `Indexed` computation has no outcome at all if it leaves the bounds of a list. `Indexed.Agrees` relates one that stays in
bounds to one that indexes no list, up to a relation on their values.
-/

namespace ColumnarQuery

/-- A computation that may fail, and has no outcome if it leaves the bounds of a list that it indexes. -/
abbrev Indexed (α : Type) := ExceptT Error Option α

namespace Indexed
variable {α β γ δ : Type}

def lift (x : Except Error α) : Indexed α :=
  ExceptT.mk (some x)

def get (xs : List α) (i : Nat) : Indexed α :=
  ExceptT.mk (xs[i]?.map Except.ok)

theorem lift_injective : Function.Injective (@lift α) :=
  fun _ _ h => Option.some.inj h

@[simp] theorem lift_ok_bind (a : α) (f : α → Indexed β) : (lift (.ok a) >>= f) = f a := rfl

theorem lift_bind (x : Except Error α) (f : α → Except Error β) :
    (lift x >>= fun a => lift (f a)) = lift (x >>= f) := by
  cases x <;> rfl

theorem bind_eq_lift_ok_iff {x : Indexed α} {f : α → Indexed β} {b : β} :
    (x >>= f) = lift (.ok b) ↔ ∃ a, x = lift (.ok a) ∧ f a = lift (.ok b) := by
  constructor
  · intro h
    match x with
    | none => cases h
    | some (.error e) => cases h
    | some (.ok a) => exact ⟨a, rfl, h⟩
  · rintro ⟨a, rfl, h⟩
    exact h

theorem get_eq_lift {xs : List α} {i : Nat} {a : α} (h : xs[i]? = some a) : get xs i = lift (.ok a) := by
  rw [get, h]
  rfl

theorem mapM_eq_lift {f : α → Indexed β} {g : α → Except Error β} {xs : List α} (h : ∀ x ∈ xs, f x = lift (g x)) :
    xs.mapM f = lift (xs.mapM g) := by
  induction xs with
  | nil => rfl
  | cons x xs ih =>
    rw [List.forall_mem_cons] at h
    rw [List.mapM_cons, List.mapM_cons, h.1, ih h.2]
    cases g x with
    | error e => rfl
    | ok y => cases xs.mapM g <;> rfl

/-! ## The outcome of another computation -/

/-- A computation stays in bounds and has the outcome of another one, whose value is related to its own. -/
inductive Agrees (R : α → β → Prop) : Indexed α → Except Error β → Prop
  | ok {a : α} {b : β} : R a b → Agrees R (lift (.ok a)) (.ok b)
  | error {e : Error} : Agrees R (lift (.error e)) (.error e)

variable {R : α → β → Prop} {S : γ → δ → Prop}

theorem Agrees.bind {x : Indexed α} {y : Except Error β} {f : α → Indexed γ} {g : β → Except Error δ}
    (h : Agrees R x y) (hfg : ∀ a b, R a b → Agrees S (f a) (g b)) : Agrees S (x >>= f) (y >>= g) := by
  cases h with
  | ok hab => exact hfg _ _ hab
  | error => exact .error

theorem agrees_eq_iff {x : Indexed α} {y : Except Error α} : Agrees Eq x y ↔ x = lift y := by
  constructor
  · intro h
    cases h with
    | ok hab => rw [hab]
    | error => rfl
  · rintro rfl
    cases y with
    | ok a => exact .ok rfl
    | error e => exact .error

theorem Agrees.lift_bind {x : Except Error α} {f : α → Indexed γ} {g : α → Except Error δ}
    (h : ∀ a, x = .ok a → Agrees S (f a) (g a)) : Agrees S (lift x >>= f) (x >>= g) := by
  cases x with
  | ok a => exact h a rfl
  | error e => exact .error

theorem Agrees.exists_lift {x : Indexed α} {y : Except Error β} (h : Agrees R x y) : ∃ z, x = lift z := by
  cases h with
  | ok => exact ⟨_, rfl⟩
  | error => exact ⟨_, rfl⟩

theorem Agrees.exists_of_lift_ok {y : Except Error β} {a : α} (h : Agrees R (lift (.ok a)) y) :
    ∃ b, y = .ok b ∧ R a b := by
  generalize hx : lift (.ok a) = x at h
  cases h with
  | ok hab =>
    cases lift_injective hx
    exact ⟨_, rfl, hab⟩
  | error => cases lift_injective hx

theorem Agrees.exists_of_ok {x : Indexed α} {b : β} (h : Agrees R x (.ok b)) : ∃ a, x = lift (.ok a) ∧ R a b := by
  cases h with
  | ok hab => exact ⟨_, rfl, hab⟩

theorem Agrees.foldlM {ι : Type} {f : α → ι → Indexed α} {g : β → ι → Except Error β} {xs : List ι} {a : α} {b : β}
    (hstep : ∀ a b x, R a b → Agrees R (f a x) (g b x)) (h : R a b) :
    Agrees R (xs.foldlM f a) (xs.foldlM g b) := by
  induction xs generalizing a b with
  | nil => exact .ok h
  | cons x xs ih =>
    rw [List.foldlM_cons, List.foldlM_cons]
    exact (hstep a b x h).bind fun _ _ => ih

end Indexed

end ColumnarQuery
