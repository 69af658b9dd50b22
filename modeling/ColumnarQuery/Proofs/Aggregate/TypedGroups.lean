import ColumnarQuery.Proofs.Aggregate.GroupRows
import ColumnarQuery.Proofs.Column.Operation

/-!
# Groups of keys and inputs of given types

`Groups.Typed` : every key has the given types, and every state has taken an input of its type. More rows keep this, unless
a function does not accept its inputs, and such groups always make a batch (`Groups.Typed.exists_toBatch`).
-/

namespace ColumnarQuery.Groups

/-- Keys of the given types, with states that have taken one or more inputs of their types. -/
def Typed (keyTypes : List DataType) (specs : AggregateInputs) (gs : Groups) : Prop :=
  ∀ g ∈ gs, g.key.map Value.type = keyTypes ∧ specs.Hold g.accumulators

def starts (specs : AggregateInputs) : List Accumulator :=
  specs.map (·.1.start)

variable {keyTypes : List DataType} {specs : AggregateInputs} {gs : Groups} {key inputs : Row}

theorem typed_nil : Typed keyTypes specs [] :=
  fun _ hg => nomatch hg

/-! ## One more row -/

theorem Typed.exists_add (h : Typed keyTypes specs gs) (hk : key.map Value.type = keyTypes)
    (hi : inputs.map Value.type = specs.map Prod.snd) (hr : specs.refused? = none) :
    ∃ gs', gs.add (starts specs) key inputs = .ok gs' ∧ Typed keyTypes specs gs' := by
  unfold Typed at h ⊢
  induction gs with
  | nil =>
    obtain ⟨accs, haccs, hhold⟩ := feedAll_of_refused?_eq_none (AggregateInputs.follow_start specs) hi hr
    refine ⟨[⟨key, accs⟩], ?_, ?_⟩
    · unfold add starts
      rw [haccs, ok_bind, pure_eq_ok]
    · rw [List.forall_mem_singleton]
      exact ⟨hk, hhold⟩
  | cons g gs ih =>
    rw [List.forall_mem_cons] at h
    rw [add]
    by_cases hkey : g.key = key
    · obtain ⟨accs, haccs, hhold⟩ := feedAll_of_refused?_eq_none h.1.2.follow hi hr
      refine ⟨⟨key, accs⟩ :: gs, by rw [if_pos hkey, haccs, ok_bind, pure_eq_ok], ?_⟩
      rw [List.forall_mem_cons]
      exact ⟨⟨hk, hhold⟩, h.2⟩
    · obtain ⟨gs', hgs', htyped⟩ := ih h.2
      refine ⟨g :: gs', by rw [if_neg hkey, hgs', ok_bind, pure_eq_ok], ?_⟩
      rw [List.forall_mem_cons]
      exact ⟨h.1, htyped⟩

theorem Typed.add_eq_error {fn : AggregateFunction} {t : DataType} (h : Typed keyTypes specs gs)
    (hi : inputs.map Value.type = specs.map Prod.snd) (hr : specs.refused? = some (fn, t)) :
    gs.add (starts specs) key inputs = .error (.unsupported (.aggregateInput fn t)) := by
  unfold Typed at h
  induction gs with
  | nil =>
    unfold add starts
    rw [feedAll_of_refused?_eq_some (AggregateInputs.follow_start specs) hi hr, error_bind]
  | cons g gs ih =>
    rw [List.forall_mem_cons] at h
    rw [add]
    by_cases hkey : g.key = key
    · rw [if_pos hkey, feedAll_of_refused?_eq_some h.1.2.follow hi hr, error_bind]
    · rw [if_neg hkey, ih h.2, error_bind]

/-! ## The rows of columns -/

section Columns
variable {keys inputs : List Column} {n : Nat} (hk : ∀ c ∈ keys, c.length = n) (hi : ∀ c ∈ inputs, c.length = n)
  (hkt : keys.map Column.type = keyTypes) (hit : inputs.map Column.type = specs.map Prod.snd)
include hk hi hkt hit

theorem Typed.exists_addRows (h : Typed keyTypes specs gs) (hr : specs.refused? = none) :
    ∃ gs', gs.addRows (starts specs) keys inputs n 0 = .ok gs' ∧ Typed keyTypes specs gs' := by
  rw [addRows_eq_foldlM hk hi]
  have htypes : ∀ p ∈ (rowsOf n (keys.map Column.toList)).zip (rowsOf n (inputs.map Column.toList)),
      p.1.map Value.type = keyTypes ∧ p.2.map Value.type = specs.map Prod.snd := by
    intro p hp
    obtain ⟨h₁, h₂⟩ := List.of_mem_zip hp
    exact ⟨(types_of_mem_rowsOf h₁).trans hkt, (types_of_mem_rowsOf h₂).trans hit⟩
  generalize (rowsOf n (keys.map Column.toList)).zip (rowsOf n (inputs.map Column.toList)) = pairs at htypes
  induction pairs generalizing gs with
  | nil => exact ⟨gs, rfl, h⟩
  | cons p pairs ih =>
    rw [List.forall_mem_cons] at htypes
    obtain ⟨gs', hgs', htyped⟩ := h.exists_add htypes.1.1 htypes.1.2 hr
    rw [List.foldlM_cons, hgs', ok_bind]
    exact ih htyped htypes.2

omit hkt in
/-- The first row meets the first function that does not accept its inputs. -/
theorem Typed.addRows_eq_error {fn : AggregateFunction} {t : DataType} (h : Typed keyTypes specs gs) (hn : n ≠ 0)
    (hr : specs.refused? = some (fn, t)) :
    gs.addRows (starts specs) keys inputs n 0 = .error (.unsupported (.aggregateInput fn t)) := by
  have hlen := length_zip_rowsOf hk hi
  rw [addRows_eq_foldlM hk hi]
  cases hpairs : (rowsOf n (keys.map Column.toList)).zip (rowsOf n (inputs.map Column.toList)) with
  | nil =>
    rw [hpairs] at hlen
    exact absurd hlen.symm hn
  | cons p pairs =>
    have hmem : p ∈ (rowsOf n (keys.map Column.toList)).zip (rowsOf n (inputs.map Column.toList)) := by
      rw [hpairs]
      exact List.mem_cons_self
    have hit' := (types_of_mem_rowsOf (List.of_mem_zip hmem).2).trans hit
    rw [List.foldlM_cons, h.add_eq_error hit' hr, error_bind]

theorem Typed.addRows_eq_error_iff {err : Error} (h : Typed keyTypes specs gs) :
    gs.addRows (starts specs) keys inputs n 0 = .error err ↔
      n ≠ 0 ∧ ∃ fn t, specs.refused? = some (fn, t) ∧ err = .unsupported (.aggregateInput fn t) := by
  cases hr : specs.refused? with
  | none =>
    obtain ⟨gs', hgs', -⟩ := h.exists_addRows hk hi hkt hit hr
    simp [hgs']
  | some p =>
    obtain ⟨fn, t⟩ := p
    by_cases hn : n = 0
    · subst hn
      simp [addRows]
    · rw [h.addRows_eq_error hk hi hit hn hr]
      simp [hn, eq_comm]

theorem Typed.typed_addRows {gs' : Groups} (h : Typed keyTypes specs gs)
    (hgs : gs.addRows (starts specs) keys inputs n 0 = .ok gs') : Typed keyTypes specs gs' := by
  cases hr : specs.refused? with
  | none =>
    obtain ⟨gs'', hgs'', htyped⟩ := h.exists_addRows hk hi hkt hit hr
    rw [hgs, Except.ok.injEq] at hgs''
    exact hgs'' ▸ htyped
  | some p =>
    obtain ⟨fn, t⟩ := p
    by_cases hn : n = 0
    · subst hn
      cases hgs
      exact h
    · rw [h.addRows_eq_error hk hi hit hn hr] at hgs
      cases hgs

end Columns

/-! ## Output -/

theorem schema_of_toBatch {schema : Schema} {width : Nat} {out : Batch} (h : gs.toBatch schema width = .ok out) :
    out.schema = schema := by
  unfold toBatch at h
  split at h
  · obtain ⟨columns, -, h⟩ := bind_eq_ok_iff.1 h
    exact (Batch.ofColumns_eq_ok_iff.1 h).1
  · cases h

theorem Typed.exists_row {g : Group} (h : Typed keyTypes specs gs) (hg : g ∈ gs) :
    ∃ row, g.row = .ok row ∧ row.map Value.type = keyTypes ++ specs.map fun p => p.1.resultType p.2 := by
  obtain ⟨hk, hhold⟩ := h g hg
  obtain ⟨answers, hanswers, htypes⟩ := exists_mapM_finish hhold
  refine ⟨g.key ++ answers, by rw [Group.row, hanswers, ok_bind, pure_eq_ok], ?_⟩
  rw [List.map_append, hk, htypes]

section Output
variable {schema : Schema} (hs : schema.types = keyTypes ++ specs.map fun p => p.1.resultType p.2)
include hs

theorem Typed.length_eq {g : Group} (h : Typed keyTypes specs gs) (hg : g ∈ gs) :
    g.key.length + g.accumulators.length = schema.size := by
  obtain ⟨hk, hhold⟩ := h g hg
  have hkl := congrArg List.length hk
  have hsl := congrArg List.length hs
  simp only [List.length_map, List.length_append, Schema.types] at hkl hsl
  rw [hkl, ← hhold.length_eq, Schema.size, hsl]

theorem Typed.exists_output {g : Group} {p : Field × Nat} (h : Typed keyTypes specs gs) (hg : g ∈ gs)
    (hp : p ∈ schema.fields.zipIdx) : ∃ v, g.output p.2 = .ok v ∧ v.type = p.1.type := by
  obtain ⟨row, hrow, htypes⟩ := h.exists_row hg
  have hfield : schema.types[p.2]? = some p.1.type := by
    rw [Schema.types, List.getElem?_map, List.mem_zipIdx_iff_getElem?.1 hp, Option.map_some]
  rw [hs, ← htypes, List.getElem?_map, Option.map_eq_some_iff] at hfield
  obtain ⟨v, hv, hvt⟩ := hfield
  exact ⟨v, Group.output_eq_ok hrow hv, hvt⟩

theorem Typed.exists_outputColumn {p : Field × Nat} (h : Typed keyTypes specs gs) (hp : p ∈ schema.fields.zipIdx) :
    ∃ c, (do Column.ofValues p.1.type (← gs.mapM (·.output p.2)) : Except Error Column) = .ok c := by
  obtain ⟨vs, hvs⟩ := exists_mapM_eq_ok_iff.2 fun g hg => (h.exists_output hs hg hp).imp fun v hv => hv.1
  have htypes : ∀ v ∈ vs, v.type = p.1.type := by
    intro v hv
    obtain ⟨g, hg, hgv⟩ := exists_of_mem_mapM hvs hv
    obtain ⟨w, hw, hwt⟩ := h.exists_output hs hg hp
    rw [hgv, Except.ok.injEq] at hw
    rw [hw, hwt]
  obtain ⟨c, hc⟩ := Column.exists_ofValues htypes
  exact ⟨c, by rw [hvs, ok_bind, hc]⟩

/-- The rows of the groups make a batch of a schema that tells the types of keys and answers. -/
theorem Typed.exists_toBatch {width : Nat} (h : Typed keyTypes specs gs) (hw : schema.size = width) :
    ∃ out, gs.toBatch schema width = .ok out ∧ gs.mapM Group.row = .ok out.rows := by
  obtain ⟨columns, hcolumns⟩ := exists_mapM_eq_ok_iff.2 fun p hp => h.exists_outputColumn hs hp
  have hmade : ∀ (p : Field × Nat) (c : Column),
      (do Column.ofValues p.1.type (← gs.mapM (·.output p.2)) : Except Error Column) = .ok c →
        c.type = p.1.type ∧ c.length = gs.length := by
    intro p c hc
    obtain ⟨vs, hvs, hc⟩ := bind_eq_ok_iff.1 hc
    obtain ⟨ht, rfl⟩ := Column.ofValues_eq_ok hc
    exact ⟨ht, by rw [← Column.length_toList, length_of_mapM_eq_ok hvs]⟩
  have htypes := Batch.types_of_forall₂_zipIdx ((mapM_eq_ok_iff.1 hcolumns).imp fun p c hc => (hmade p c hc).1)
  have hlengths : ∀ c ∈ columns, c.length = gs.length := by
    intro c hc
    obtain ⟨p, -, hp⟩ := exists_of_mem_mapM hcolumns hc
    exact (hmade p c hp).2
  obtain ⟨out, hout⟩ := Batch.exists_ofColumns htypes hlengths
  have hbatch : gs.toBatch schema width = .ok out := by rw [toBatch, if_pos hw, hcolumns, ok_bind, hout]
  refine ⟨out, hbatch, (rows_of_toBatch (fun g hg => ?_) hbatch).1⟩
  rw [← hw, h.length_eq hs hg]

end Output

end ColumnarQuery.Groups
