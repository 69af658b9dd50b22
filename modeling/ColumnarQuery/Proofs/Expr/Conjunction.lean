import ColumnarQuery.Proofs.Plan.Resolution
import ColumnarQuery.Proofs.Value.Order

/-!
# Conjunctions of key equalities

`keysAre` is the predicate that keys have given values, over column names and over positions. On a row it compares the keys
with the values as wholes, where no key is a number in floating point (`Physical.Expr.onRow_keysAre`).
-/

namespace ColumnarQuery

/-! ## By names -/

namespace Logical.Expr

/-- All the predicates hold, the first two of them in the innermost operator. -/
def conjunction : List Expr → Expr
  | [] => .literal (.boolean true)
  | e :: es => es.foldl (.binary (.connective .and)) e

def keysAre (keys : List Expr) (values : Row) : Expr :=
  conjunction (List.zipWith (fun e v => .binary (.comparison .eq) e (.literal v)) keys values)

end Logical.Expr

/-! ## By positions -/

namespace Physical.Expr

def conjunction : List Expr → Expr
  | [] => .literal (.boolean true)
  | e :: es => es.foldl (.binary (.connective .and)) e

def keysAre (keys : List Expr) (values : Row) : Expr :=
  conjunction (List.zipWith (fun e v => .binary (.comparison .eq) e (.literal v)) keys values)

variable {types : List DataType} {row : Row}

theorem type?_conjunction {es : List Expr} (h : ∀ e ∈ es, e.type? types = some .boolean) :
    (conjunction es).type? types = some .boolean := by
  cases es with
  | nil => rfl
  | cons e es =>
    obtain ⟨he, hes⟩ := List.forall_mem_cons.1 h
    clear h
    rw [conjunction]
    -- The fold nests to the left, so that the induction is on the rest behind any first predicate.
    induction es generalizing e with
    | nil => exact he
    | cons e' es ih =>
      rw [List.forall_mem_cons] at hes
      exact ih (.binary (.connective .and) e e') (type?_binary_eq_some_iff.2 ⟨.boolean, he, hes.1, rfl, rfl⟩) hes.2

theorem onRow_conjunction {es : List Expr} {bs : List Bool}
    (h : List.Forall₂ (fun e b => e.onRow row = .ok (.boolean b)) es bs) :
    (conjunction es).onRow row = .ok (.boolean (bs.all id)) := by
  cases h with
  | nil => rfl
  | @cons e b es bs he hes =>
    rw [conjunction, List.all_cons, id]
    induction hes generalizing e b with
    | nil => rw [List.foldl_nil, he, List.all_nil, Bool.and_true]
    | @cons e' b' es bs he' _ ih =>
      rw [List.foldl_cons, List.all_cons, id, ← Bool.and_assoc]
      refine ih ?_
      rw [onRow, he, ok_bind, he', ok_bind]
      rfl

theorem type?_keysAre {keys : List Expr} {values : Row}
    (h : keys.map (·.type? types) = (values.map Value.type).map some) :
    (keysAre keys values).type? types = some .boolean := by
  refine type?_conjunction fun e he => ?_
  induction keys generalizing values with
  | nil => simp at he
  | cons key keys ih =>
    cases values with
    | nil => simp at he
    | cons v values =>
      rw [List.map_cons, List.map_cons, List.map_cons, List.cons.injEq] at h
      rw [List.zipWith_cons_cons, List.mem_cons] at he
      rcases he with rfl | he
      · exact type?_binary_eq_some_iff.2 ⟨v.type, h.1, rfl, rfl, rfl⟩
      · exact ih h.2 he

/-- Key equalities hold on a row exactly if its keys are the values. -/
theorem onRow_keysAre {keys : List Expr} {values key : Row} (hkey : keys.mapM (·.onRow row) = .ok key)
    (ht : key.map Value.type = values.map Value.type) (hf : ∀ v ∈ values, v.type.isFloating = false) :
    (keysAre keys values).onRow row = .ok (.boolean (key = values)) := by
  have hall := mapM_eq_ok_iff.1 hkey
  clear hkey
  have hone : List.Forall₂ (fun (e : Expr) (b : Bool) => e.onRow row = .ok (.boolean b))
      (List.zipWith (fun e v => .binary (.comparison .eq) e (.literal v)) keys values)
      (List.zipWith (fun v w => decide (v = w)) key values) := by
    induction hall generalizing values with
    | nil => exact .nil
    | @cons e v keys key he _ ih =>
      cases values with
      | nil => exact .nil
      | cons w values =>
        rw [List.map_cons, List.map_cons, List.cons.injEq] at ht
        rw [List.forall_mem_cons] at hf
        refine .cons ?_ (ih ht.2 hf.2)
        rw [onRow, he, ok_bind, onRow, ok_bind, Value.apply_eq ht.1 (by rw [ht.1, hf.1])]
  have hequal : (List.zipWith (fun v w => decide (v = w)) key values).all id = decide (key = values) := by
    clear hone hall hf
    induction key generalizing values with
    | nil => cases values <;> simp at ht ⊢
    | cons v key ih =>
      cases values with
      | nil => simp at ht
      | cons w values =>
        rw [List.map_cons, List.map_cons, List.cons.injEq] at ht
        rw [List.zipWith_cons_cons, List.all_cons, id, ih ht.2]
        simp
  rw [keysAre, onRow_conjunction hone, hequal]

end Physical.Expr

/-! ## From names to positions -/

namespace Logical.Expr

variable {s : Schema}

theorem resolve_conjunction {es : List Expr} {pes : List Physical.Expr}
    (h : List.Forall₂ (fun e pe => e.resolve s = .ok pe) es pes) :
    (conjunction es).resolve s = .ok (.conjunction pes) := by
  cases h with
  | nil => rfl
  | @cons e pe es pes he hes =>
    rw [conjunction, Physical.Expr.conjunction]
    induction hes generalizing e pe with
    | nil => exact he
    | cons he' _ ih =>
      refine ih ?_
      rw [resolve, he, ok_bind, he', ok_bind, pure_eq_ok]

theorem resolve_keysAre {keys : List Expr} {pkeys : List Physical.Expr} (h : keys.mapM (·.resolve s) = .ok pkeys)
    (values : Row) : (keysAre keys values).resolve s = .ok (.keysAre pkeys values) := by
  refine resolve_conjunction ?_
  have hall := mapM_eq_ok_iff.1 h
  clear h
  induction hall generalizing values with
  | nil => exact .nil
  | cons he _ ih =>
    cases values with
    | nil => exact .nil
    | cons v values =>
      refine .cons ?_ (ih values)
      rw [resolve, he, ok_bind]
      rfl

end Logical.Expr

end ColumnarQuery
