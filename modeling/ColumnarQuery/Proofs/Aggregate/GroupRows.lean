import ColumnarQuery.Proofs.Aggregate.Answers
import ColumnarQuery.Proofs.Aggregate.Grouping
import ColumnarQuery.Proofs.Column.Operation

/-!
# Aggregation of rows

`groupRows` makes a row per key, in the order in which the keys first occur: the key, then the answer of each aggregate
function on the inputs of the rows of that key. These are the rows of the groups that rows are taken into one by one
(`groupRows_eq_ok_iff`), and of the batch made of them (`Groups.rows_of_toBatch`).
-/

namespace ColumnarQuery

section GroupRows
variable {key : Row → Except Error Row} {aggregates : List (AggregateFunction × (Row → Except Error Value))}

/-- One row per key: the key, then the answers on the rows with that key. -/
def groupRows (key : Row → Except Error Row) (aggregates : List (AggregateFunction × (Row → Except Error Value)))
    (rows : List Row) : Except Error (List Row) := do
  let keys ← rows.mapM key
  keys.eraseDups.mapM fun k => do
    let group := withKey k (keys.zip rows)
    return k ++ (← aggregates.mapM fun a => do a.1.answer (← group.mapM a.2))

def Group.row (g : Group) : Except Error Row := do
  return g.key ++ (← g.accumulators.mapM Accumulator.finish)

theorem mapM_withKey_zip {f : Row → Except Error Row} {keys rows inputs : List Row} (k : Row)
    (hl : keys.length = rows.length) (h : rows.mapM f = .ok inputs) :
    (withKey k (keys.zip rows)).mapM f = .ok (withKey k (keys.zip inputs)) := by
  have hall := mapM_eq_ok_iff.1 h
  clear h
  induction hall generalizing keys with
  | nil =>
    rw [List.zip_nil_right]
    rfl
  | @cons row input rows inputs hrow _ ih =>
    cases keys with
    | nil => cases hl
    | cons key keys =>
      have hrest := ih (Nat.succ.inj hl)
      rw [List.zip_cons_cons, List.zip_cons_cons]
      unfold withKey at hrest ⊢
      by_cases hk : key = k
      · simp only [List.filter_cons, hk, decide_true, if_true, List.map_cons, List.mapM_cons, hrow, ok_bind, hrest,
          pure_eq_ok]
      · simpa only [List.filter_cons, hk, decide_false, Bool.false_eq_true, if_false] using hrest

theorem finish_foldlM_eq_ok_iff {group : List Row} {columns : List (List Value)} {answers : Row}
    (h : List.Forall₂ (fun a column => group.mapM a.2 = .ok column) aggregates columns) :
    (∃ accs, (((aggregates.map (·.1.start)).zip columns).mapM fun p => p.2.foldlM Accumulator.feed p.1) = .ok accs ∧
        accs.mapM Accumulator.finish = .ok answers) ↔
      (aggregates.mapM fun a => do a.1.answer (← group.mapM a.2)) = .ok answers := by
  induction h generalizing answers with
  | nil =>
    constructor
    · intro hall
      obtain ⟨_, haccs, hanswers⟩ := hall
      cases haccs
      exact hanswers
    · intro hall
      exact ⟨[], rfl, hall⟩
  | @cons a column aggregates columns ha _ ih =>
    rw [List.map_cons, List.zip_cons_cons, List.mapM_cons, List.mapM_cons, ha, ok_bind]
    simp only [← AggregateFunction.ofValues_eq_answer, AggregateFunction.ofValues] at ih ⊢
    constructor
    · intro hall
      obtain ⟨_, haccs, hanswers⟩ := hall
      obtain ⟨acc, hacc, hrest⟩ := bind_eq_ok_iff.1 haccs
      obtain ⟨rest, htail, hcons⟩ := bind_eq_ok_iff.1 hrest
      cases hcons
      rw [List.mapM_cons] at hanswers
      obtain ⟨v, hv, hanswers⟩ := bind_eq_ok_iff.1 hanswers
      obtain ⟨vs, hvs, hanswers⟩ := bind_eq_ok_iff.1 hanswers
      rw [hacc, ok_bind, hv, ok_bind, ih.1 ⟨rest, htail, hvs⟩, ok_bind]
      exact hanswers
    · intro hall
      obtain ⟨v, hv, hall⟩ := bind_eq_ok_iff.1 hall
      obtain ⟨vs, hvs, hall⟩ := bind_eq_ok_iff.1 hall
      obtain ⟨acc, hacc, hv⟩ := bind_eq_ok_iff.1 hv
      obtain ⟨accs, haccs, hvs⟩ := ih.2 hvs
      refine ⟨acc :: accs, by rw [hacc, ok_bind, haccs, ok_bind, pure_eq_ok], ?_⟩
      rw [List.mapM_cons, hv, ok_bind, hvs, ok_bind]
      exact hall

/-- The group of a key has the states that each function comes to on its own column of the rows with that key. -/
theorem exists_columns_of_key {keys rows inputs : List Row} (k : Row) (hl : keys.length = rows.length)
    (h : (rows.mapM fun row => aggregates.mapM (·.2 row)) = .ok inputs) :
    ∃ columns, List.Forall₂ (fun a column => (withKey k (keys.zip rows)).mapM a.2 = .ok column) aggregates columns ∧
      ∀ g, Groups.groupOf (aggregates.map (·.1.start)) (keys.zip inputs) k = .ok g ↔
        ∃ states, ((aggregates.map (·.1.start)).zip columns).mapM (fun p => p.2.foldlM Accumulator.feed p.1) =
          .ok states ∧ Group.mk k states = g := by
  obtain ⟨columns, hcolumns, hrows⟩ := mapM_mapM_eq_ok_iff.1 (mapM_withKey_zip k hl h)
  have hlen : (aggregates.map (·.1.start)).length = columns.length := by
    rw [List.length_map, hcolumns.length_eq]
  have hn : ∀ c ∈ columns, c.length = (withKey k (keys.zip rows)).length := by
    intro c hc
    obtain ⟨a, -, ha⟩ := exists_mem_of_forall₂ hcolumns.flip hc
    exact length_of_mapM_eq_ok ha
  refine ⟨columns, hcolumns, fun g => ?_⟩
  rw [Groups.groupOf, map_eq_ok_iff, hrows]
  simp only [foldlM_feedAll_rowsOf_eq_ok_iff hlen hn]

theorem row_groupOf_eq_ok_iff {k : Row} {keys rows inputs : List Row} {out : Row} (hl : keys.length = rows.length)
    (h : (rows.mapM fun row => aggregates.mapM (·.2 row)) = .ok inputs) :
    (∃ g, Groups.groupOf (aggregates.map (·.1.start)) (keys.zip inputs) k = .ok g ∧ g.row = .ok out) ↔
      (do
        let group := withKey k (keys.zip rows)
        return k ++ (← aggregates.mapM fun a => do a.1.answer (← group.mapM a.2)) : Except Error Row) = .ok out := by
  obtain ⟨columns, hcolumns, hgroup⟩ := exists_columns_of_key k hl h
  unfold Group.row
  constructor
  · intro hall
    obtain ⟨g, hg, hout⟩ := hall
    obtain ⟨accs, haccs, rfl⟩ := (hgroup g).1 hg
    obtain ⟨answers, hanswers, hout⟩ := bind_eq_ok_iff.1 hout
    simp only [(finish_foldlM_eq_ok_iff hcolumns).1 ⟨accs, haccs, hanswers⟩, ok_bind]
    exact hout
  · intro hall
    obtain ⟨answers, hanswers, hout⟩ := bind_eq_ok_iff.1 hall
    obtain ⟨accs, haccs, hfin⟩ := (finish_foldlM_eq_ok_iff hcolumns).2 hanswers
    refine ⟨⟨k, accs⟩, (hgroup _).2 ⟨accs, haccs, rfl⟩, ?_⟩
    rw [hfin, ok_bind]
    exact hout

/-- Each state of a group was fed the inputs of the rows with its key. -/
theorem states_of_groupOf {k : Row} {keys rows inputs : List Row} {g : Group} (hl : keys.length = rows.length)
    (h : (rows.mapM fun row => aggregates.mapM (·.2 row)) = .ok inputs)
    (hg : Groups.groupOf (aggregates.map (·.1.start)) (keys.zip inputs) k = .ok g) :
    g.key = k ∧ List.Forall₂ (fun a state => ∃ vs, (withKey k (keys.zip rows)).mapM a.2 = .ok vs ∧
      vs.foldlM Accumulator.feed a.1.start = .ok state) aggregates g.accumulators := by
  obtain ⟨columns, hcolumns, hgroup⟩ := exists_columns_of_key k hl h
  obtain ⟨states, hstates, rfl⟩ := (hgroup g).1 hg
  refine ⟨rfl, ?_⟩
  clear h hg hgroup
  show List.Forall₂ _ aggregates states
  induction hcolumns generalizing states with
  | nil =>
    cases hstates
    exact .nil
  | @cons a column aggregates columns ha _ ih =>
    rw [List.map_cons, List.zip_cons_cons, List.mapM_cons] at hstates
    obtain ⟨state, hstate, hrest⟩ := bind_eq_ok_iff.1 hstates
    obtain ⟨rest, htail, hcons⟩ := bind_eq_ok_iff.1 hrest
    cases hcons
    exact .cons ⟨column, ha, hstate⟩ (ih rest htail)

/-- Every row stands with its key, so its inputs are computed for the answers of that key. -/
theorem exists_inputs_of_answers {keys rows out : List Row} (hl : keys.length = rows.length)
    (h : (keys.eraseDups.mapM fun k => (do
      let group := withKey k (keys.zip rows)
      return k ++ (← aggregates.mapM fun a => do a.1.answer (← group.mapM a.2)) : Except Error Row)) = .ok out) :
    ∃ inputs, (rows.mapM fun row => aggregates.mapM (·.2 row)) = .ok inputs := by
  refine exists_mapM_eq_ok_iff.2 fun row hrow => exists_mapM_eq_ok_iff.2 fun a ha => ?_
  obtain ⟨i, hi, rfl⟩ := List.getElem_of_mem hrow
  have hik : i < keys.length := by omega
  obtain ⟨v, hv⟩ := exists_mapM_eq_ok_iff.1 ⟨out, h⟩ keys[i] (List.mem_eraseDups.2 (List.getElem_mem hik))
  obtain ⟨answers, hanswers, -⟩ := bind_eq_ok_iff.1 hv
  obtain ⟨answer, hanswer⟩ := exists_mapM_eq_ok_iff.1 ⟨answers, hanswers⟩ a ha
  obtain ⟨column, hcolumn, -⟩ := bind_eq_ok_iff.1 hanswer
  refine exists_mapM_eq_ok_iff.1 ⟨column, hcolumn⟩ rows[i] (List.mem_map.2 ⟨(keys[i], rows[i]), ?_, rfl⟩)
  rw [List.mem_filter]
  refine ⟨?_, decide_eq_true rfl⟩
  rw [List.mem_iff_getElem]
  exact ⟨i, by rw [List.length_zip]; omega, List.getElem_zip⟩

/-- Grouping rows makes one row of each group that the rows are taken into. -/
theorem groupRows_eq_ok_iff {rows out : List Row} :
    groupRows key aggregates rows = .ok out ↔
      ∃ keys inputs gs, rows.mapM key = .ok keys ∧ (rows.mapM fun row => aggregates.mapM (·.2 row)) = .ok inputs ∧
        Groups.ofPairs (aggregates.map (·.1.start)) (keys.zip inputs) = .ok gs ∧ gs.mapM Group.row = .ok out := by
  have hgroups : ∀ {keys inputs}, rows.mapM key = .ok keys →
      (rows.mapM fun row => aggregates.mapM (·.2 row)) = .ok inputs →
      ((keys.eraseDups.mapM fun k => (do
          let group := withKey k (keys.zip rows)
          return k ++ (← aggregates.mapM fun a => do a.1.answer (← group.mapM a.2)) : Except Error Row)) = .ok out ↔
        ∃ gs, Groups.ofPairs (aggregates.map (·.1.start)) (keys.zip inputs) = .ok gs ∧
          gs.mapM Group.row = .ok out) := by
    intro keys inputs hkeys hinputs
    have hk := length_of_mapM_eq_ok hkeys
    have hi := length_of_mapM_eq_ok hinputs
    rw [Groups.ofPairs, List.map_fst_zip (by omega), ← mapM_bind_eq_ok_iff]
    exact mapM_eq_ok_congr fun k _ out => (row_groupOf_eq_ok_iff hk hinputs).symm.trans bind_eq_ok_iff.symm
  unfold groupRows
  rw [bind_eq_ok_iff]
  constructor
  · intro h
    obtain ⟨keys, hkeys, hout⟩ := h
    obtain ⟨inputs, hinputs⟩ := exists_inputs_of_answers (length_of_mapM_eq_ok hkeys) hout
    obtain ⟨gs, hgs, hrows⟩ := (hgroups hkeys hinputs).1 hout
    exact ⟨keys, inputs, gs, hkeys, hinputs, hgs, hrows⟩
  · intro h
    obtain ⟨keys, inputs, gs, hkeys, hinputs, hgs, hrows⟩ := h
    exact ⟨keys, hkeys, (hgroups hkeys hinputs).2 ⟨gs, hgs, hrows⟩⟩

end GroupRows

/-! ## Output -/

namespace Group
variable {g : Group} {row : Row}

theorem output_of_getElem?_key {i : Nat} {v : Value} (h : g.key[i]? = some v) :
    g.output i = .ok v := by
  have hi : i < (g.key.map (Except.ok : Value → Except Error Value)).length := by
    rw [List.length_map]
    exact (List.getElem?_eq_some_iff.1 h).1
  rw [output, List.getElem?_append_left hi, List.getElem?_map, h, Option.map_some]

theorem output_of_getElem?_accumulators {j : Nat} {a : Accumulator}
    (h : g.accumulators[j]? = some a) : g.output (g.key.length + j) = a.finish := by
  have hj : (g.key.map (Except.ok : Value → Except Error Value)).length ≤ g.key.length + j := by
    rw [List.length_map]
    omega
  rw [output, List.getElem?_append_right hj, List.length_map, Nat.add_sub_cancel_left, List.getElem?_map, h,
    Option.map_some]

theorem output_eq_ok {i : Nat} {v : Value} (h : g.row = .ok row) (hv : row[i]? = some v) :
    g.output i = .ok v := by
  unfold Group.row at h
  obtain ⟨answers, hanswers, h⟩ := bind_eq_ok_iff.1 h
  cases h
  have hfinish : g.accumulators.map Accumulator.finish = answers.map Except.ok := by
    rw [← List.forall₂_eq_eq_eq, List.forall₂_map_left_iff, List.forall₂_map_right_iff]
    exact mapM_eq_ok_iff.1 hanswers
  unfold Group.output
  rw [hfinish, ← List.map_append, List.getElem?_map, hv, Option.map_some]

theorem mapM_output_eq_ok_iff {schema : Schema} (hl : g.key.length + g.accumulators.length = schema.size) :
    (schema.fields.zipIdx.mapM fun p => g.output p.2) = .ok row ↔ g.row = .ok row := by
  have houtputs : ∀ {row}, g.row = .ok row → (schema.fields.zipIdx.mapM fun p => g.output p.2) = .ok row := by
    intro row hrow
    obtain ⟨answers, hanswers, hcons⟩ := bind_eq_ok_iff.1 hrow
    cases hcons
    rw [mapM_eq_ok_iff, List.forall₂_iff_get]
    refine ⟨?_, fun i h₁ h₂ => output_eq_ok hrow ?_⟩
    · rw [List.length_zipIdx, List.length_append, length_of_mapM_eq_ok hanswers, hl, Schema.size]
    · simp
  refine ⟨fun h => ?_, houtputs⟩
  have hfinish : ∀ a ∈ g.accumulators, ∃ v, a.finish = .ok v := by
    intro a ha
    obtain ⟨j, hj, rfl⟩ := List.getElem_of_mem ha
    have hlt : g.key.length + j < schema.fields.length := by
      rw [← Schema.size, ← hl]
      omega
    have hmem : (schema.fields[g.key.length + j], g.key.length + j) ∈ schema.fields.zipIdx :=
      List.mem_zipIdx_iff_getElem?.2 (List.getElem?_eq_getElem hlt)
    obtain ⟨v, hv⟩ := exists_mapM_eq_ok_iff.1 ⟨row, h⟩ _ hmem
    exact ⟨v, by rw [← output_of_getElem?_accumulators (List.getElem?_eq_getElem hj), hv]⟩
  obtain ⟨answers, hanswers⟩ := exists_mapM_eq_ok_iff.2 hfinish
  have hrow : g.row = .ok (g.key ++ answers) := by rw [Group.row, hanswers, ok_bind, pure_eq_ok]
  rw [hrow, ← houtputs hrow, h]

end Group

/-- The batch of groups has their rows. -/
theorem Groups.rows_of_toBatch {gs : Groups} {schema : Schema} {width : Nat} {out : Batch}
    (hl : ∀ g ∈ gs, g.key.length + g.accumulators.length = width) (h : gs.toBatch schema width = .ok out) :
    gs.mapM Group.row = .ok out.rows ∧ out.rowCount = gs.length := by
  unfold toBatch at h
  split at h
  · rename_i hsize
    obtain ⟨columns, hcolumns, h⟩ := bind_eq_ok_iff.1 h
    obtain ⟨rfl, rfl, hn⟩ := Batch.ofColumns_eq_ok_iff.1 h
    refine ⟨?_, hn⟩
    rw [← mapM_eq_ok_congr fun g hg row => Group.mapM_output_eq_ok_iff ((hl g hg).trans hsize.symm),
      mapM_mapM_eq_ok_iff]
    refine ⟨out.columns.map Column.toList, ?_, by rw [Batch.rows, hn]⟩
    rw [List.forall₂_map_right_iff]
    refine (mapM_eq_ok_iff.1 hcolumns).imp fun p c hc => ?_
    obtain ⟨vs, hvs, hc⟩ := bind_eq_ok_iff.1 hc
    obtain ⟨-, rfl⟩ := Column.ofValues_eq_ok hc
    exact hvs
  · cases h

end ColumnarQuery
