import ColumnarQuery.Error
import ColumnarQuery.Proofs.Traversal

/-!
# Computations with related results

* `Corresponds R` : two computations fail with the same error, or succeed with results that `R` relates;
* `Corresponds.bind`, `Corresponds.mapM`, `Corresponds.foldlM` : so do their sequences, traversals and folds.
-/

namespace ColumnarQuery

/-- Two computations that fail with the same error, or succeed with related results. -/
inductive Corresponds {α β : Type} (R : α → β → Prop) : Except Error α → Except Error β → Prop
  | ok {a : α} {b : β} : R a b → Corresponds R (.ok a) (.ok b)
  | error {e : Error} : Corresponds R (.error e) (.error e)

namespace Corresponds

variable {α β γ δ : Type} {R : α → β → Prop} {S : γ → δ → Prop}

theorem refl {R : α → α → Prop} (h : ∀ a, R a a) (x : Except Error α) : Corresponds R x x := by
  cases x with
  | ok a => exact .ok (h a)
  | error e => exact .error

theorem trans {S : β → γ → Prop} {T : α → γ → Prop} {x : Except Error α} {y : Except Error β} {z : Except Error γ}
    (hxy : Corresponds R x y) (hT : ∀ {a b c}, R a b → S b c → T a c) (hyz : Corresponds S y z) : Corresponds T x z := by
  cases hxy with
  | ok hab =>
    cases hyz with
    | ok hbc => exact .ok (hT hab hbc)
  | error =>
    cases hyz with
    | error => exact .error

theorem bind {x : Except Error α} {y : Except Error β} {f : α → Except Error γ} {g : β → Except Error δ}
    (h : Corresponds R x y) (hf : ∀ a b, R a b → Corresponds S (f a) (g b)) : Corresponds S (x >>= f) (y >>= g) := by
  cases h with
  | ok hab => exact hf _ _ hab
  | error => exact .error

theorem mapM {f : α → Except Error γ} {g : β → Except Error δ} {xs : List α} {ys : List β}
    (h : List.Forall₂ R xs ys) (hf : ∀ a b, R a b → Corresponds S (f a) (g b)) :
    Corresponds (List.Forall₂ S) (xs.mapM f) (ys.mapM g) := by
  induction h with
  | nil => exact .ok .nil
  | cons hab _ ih =>
    rw [List.mapM_cons, List.mapM_cons]
    exact (hf _ _ hab).bind fun c d hcd => ih.bind fun cs ds hcds => .ok (.cons hcd hcds)

theorem mapM_same {f : α → Except Error γ} {g : α → Except Error δ} {xs : List α}
    (hf : ∀ a, Corresponds S (f a) (g a)) : Corresponds (List.Forall₂ S) (xs.mapM f) (xs.mapM g) :=
  mapM (List.forall₂_same.2 fun a _ => (rfl : a = a)) fun a _ hab => hab ▸ hf a

theorem foldlM {f : γ → α → Except Error γ} {g : δ → β → Except Error δ} {xs : List α} {ys : List β} {s : γ} {t : δ}
    (h : List.Forall₂ R xs ys) (hf : ∀ s t a b, S s t → R a b → Corresponds S (f s a) (g t b)) (hs : S s t) :
    Corresponds S (xs.foldlM f s) (ys.foldlM g t) := by
  induction h generalizing s t with
  | nil => exact .ok hs
  | cons hab _ ih =>
    rw [List.foldlM_cons, List.foldlM_cons]
    exact (hf _ _ _ _ hs hab).bind fun _ _ => ih

end Corresponds

end ColumnarQuery
