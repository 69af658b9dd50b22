import ColumnarQuery.Proofs.Batch.Storage
import ColumnarQuery.Proofs.Expr.Predicate

/-!
# Substitution of expressions for columns

`Physical.Expr.subst` makes an expression over computed columns one over the columns that they are computed from. It has the
same type, and on a row the same value as on the computed row.
-/

namespace ColumnarQuery.Physical

namespace Expr

/-- The expression with each column replaced by the expression at its position; a column past the end stays. -/
def subst (es : List Expr) : Expr → Expr
  | column i => es[i]?.getD (column i)
  | literal v => literal v
  | binary op left right => binary op (left.subst es) (right.subst es)

variable {es : List Expr} {e : Expr}

theorem type?_subst {types ts : List DataType} {t : DataType} (hes : es.map (·.type? types) = ts.map some)
    (ht : e.type? ts = some t) : (e.subst es).type? types = some t := by
  induction e generalizing t with
  | column i =>
    have hi := congrArg (·[i]?) hes
    rw [type?] at ht
    rw [List.getElem?_map, List.getElem?_map, ht, Option.map_some, Option.map_eq_some_iff] at hi
    obtain ⟨e, he, hte⟩ := hi
    rw [subst, he, Option.getD_some, hte]
  | literal v => exact ht
  | binary op left right ihl ihr =>
    obtain ⟨u, hl, hr, hrest⟩ := type?_binary_eq_some_iff.1 ht
    exact type?_binary_eq_some_iff.2 ⟨u, ihl hl, ihr hr, hrest⟩

theorem onRow_subst {row computed : Row} {v : Value} (hes : es.mapM (·.onRow row) = .ok computed)
    (hv : e.onRow computed = .ok v) : (e.subst es).onRow row = .ok v := by
  induction e generalizing v with
  | column i =>
    rw [onRow] at hv
    split at hv
    · rename_i w hw
      cases hv
      obtain ⟨e, he, hew⟩ := exists_getElem?_of_forall₂ (mapM_eq_ok_iff.1 hes).flip hw
      rw [subst, he, Option.getD_some]
      exact hew
    · cases hv
  | literal w => exact hv
  | binary op left right ihl ihr =>
    rw [onRow] at hv
    obtain ⟨l, hl, hv⟩ := bind_eq_ok_iff.1 hv
    obtain ⟨r, hr, hv⟩ := bind_eq_ok_iff.1 hv
    rw [subst, onRow, ihl hl, ok_bind, ihr hr, ok_bind, hv]

end Expr

variable {schema : Schema} {es : List Expr} {b out : Batch}

theorem rows_of_projectBatch (h : projectBatch schema es b = .ok out) :
    es.map (·.type? b.schema.types) = schema.types.map some ∧
      b.rows.mapM (fun row => es.mapM (·.onRow row)) = .ok out.rows := by
  obtain ⟨hfits, hrows⟩ := (rowStep_project b.schema schema es).sound rfl h
  rw [expandRows_projectRow] at hrows
  exact ⟨hfits, hrows⟩

theorem Expr.mask_subst {q : Expr} {m : List Bool} (h : projectBatch schema es b = .ok out) (hq : q.mask out = .ok m) :
    (q.subst es).mask b = .ok m := by
  obtain ⟨hfits, hrows⟩ := rows_of_projectBatch h
  obtain ⟨ht, hv⟩ := mask_eq_ok_iff.1 hq
  rw [schema_of_projectBatch h] at ht
  have hcomputed := mapM_bind_eq_ok_iff.2 ⟨out.rows, hrows, hv⟩
  refine mask_eq_ok_iff.2 ⟨type?_subst hfits ht, mapM_eq_ok_iff.2 ((mapM_eq_ok_iff.1 hcomputed).imp ?_)⟩
  intro row v hrow
  obtain ⟨computed, hes, hv⟩ := bind_eq_ok_iff.1 hrow
  exact onRow_subst hes hv

theorem projectBatch_retain (h : projectBatch schema es b = .ok out) (keep : List Bool) :
    ∃ kept, projectBatch schema es (b.retain keep) = .ok kept ∧ (out.retain keep).Equiv kept := by
  obtain ⟨hfits, hrows⟩ := rows_of_projectBatch h
  have hkept := mapM_retain hrows keep
  rw [← Batch.rows_retain, ← Batch.rows_retain] at hkept
  have hexpand := hkept
  rw [← expandRows_projectRow] at hexpand
  obtain ⟨kept, hk⟩ := (rowStep_project b.schema schema es).complete (b := b.retain keep) rfl hfits hexpand
  have hsame := (rows_of_projectBatch hk).2
  rw [hkept, Except.ok.injEq] at hsame
  refine ⟨kept, hk, Batch.equiv_iff.2 ⟨?_, hsame⟩⟩
  show out.schema = kept.schema
  rw [schema_of_projectBatch h, schema_of_projectBatch hk]

end ColumnarQuery.Physical
