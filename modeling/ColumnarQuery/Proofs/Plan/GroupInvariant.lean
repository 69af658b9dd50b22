import ColumnarQuery.Proofs.Plan.InRange
import Mathlib.Data.Finset.Card
import Mathlib.Data.Finset.Dedup

/-!
# What a table of groups holds

`Physical.RowLoop` are the tables that an aggregation comes to, with the rows that it has taken. Each of them holds the
groups of its rows, and so satisfies `GroupTable.Invariant`; the batch that is returned finishes them
(`Physical.rowLoop_invariant`).
-/

namespace ColumnarQuery

/-! ## Tables -/

namespace GroupTable
variable {M : KeyMap}

/-- What a table holds after rows with the keys `ks`. -/
structure Invariant (keys : List Physical.Expr) (aggregates : List Physical.Aggregate) (ks rows : List Row)
    (t : GroupTable M) : Prop where
  computed : (rows.mapM fun row => keys.mapM (·.onRow row)) = .ok ks
  distinct : t.keys.Nodup
  firstSeen : t.keys = ks.eraseDups
  find?_eq_some_iff : ∀ (k : Row) (slot : Nat), M.find? t.index k = some slot ↔ t.keys[slot]? = some k
  length_eq : t.accumulators.length = t.keys.length
  slot_lt : ∀ start key, (t.enter start key).1 < (t.enter start key).2.accumulators.length
  fed : ∀ (slot : Nat) (k : Row), t.keys[slot]? = some k → withKey k (ks.zip rows) ≠ [] ∧ ∃ states,
    t.accumulators[slot]? = some states ∧ List.Forall₂ (fun a state => ∃ vs,
      (withKey k (ks.zip rows)).mapM a.input.onRow = .ok vs ∧ vs.foldlM Accumulator.feed a.function.start = .ok state)
      aggregates states

/-- The batch has a row for each key of the table, the key and then the final values of its states. -/
structure FinishesAs (t : GroupTable M) (out : Batch) : Prop where
  rowCount_eq : out.rowCount = t.keys.length
  row : ∀ (slot : Nat) (k : Row) (states : List Accumulator), t.keys[slot]? = some k → t.accumulators[slot]? = some states →
    ∃ finals, states.mapM Accumulator.finish = .ok finals ∧ out.row slot = .ok (k ++ finals)

end GroupTable

/-! ## Groups -/

theorem Groups.forall₂_of_ofPairs {start : List Accumulator} {pairs : List (Row × Row)} {gs : Groups}
    (h : ofPairs start pairs = .ok gs) :
    List.Forall₂ (fun k g => groupOf start pairs k = .ok g ∧ g.key = k) (pairs.map Prod.fst).eraseDups gs := by
  refine (mapM_eq_ok_iff.1 h).imp fun k g hg => ⟨hg, ?_⟩
  obtain ⟨states, -, rfl⟩ := map_eq_ok_iff.1 hg
  rfl

namespace Physical
variable {M : KeyMap} {keys : List Expr} {aggregates : List Aggregate} {rows : List Row} {gs gs' : Groups} {b : Batch}
  {n : Nat}

def GroupsOf (keys : List Expr) (aggregates : List Aggregate) (rows : List Row) (gs : Groups) : Prop :=
  ∃ ks ins, (rows.mapM fun row => keys.mapM (·.onRow row)) = .ok ks ∧
    (rows.mapM fun row => aggregates.mapM (·.input.onRow row)) = .ok ins ∧
    Groups.ofPairs (aggregates.map (·.function.start)) (ks.zip ins) = .ok gs

theorem groupsOf_nil : GroupsOf keys aggregates [] [] :=
  ⟨[], [], rfl, rfl, rfl⟩

theorem GroupsOf.append (h : GroupsOf keys aggregates rows gs) (hn : n ≤ b.rowCount)
    (hstep : groupPrefix keys aggregates n gs b = .ok gs') : GroupsOf keys aggregates (rows ++ b.rows.take n) gs' := by
  obtain ⟨ks, ins, hks, hins, hgs⟩ := h
  obtain ⟨-, ks', ins', hks', hins', hadd⟩ := (groupPrefix_eq_ok_iff rfl hn).1 hstep
  rw [List.zip_eq_zipWith, List.take_zipWith, ← List.zip_eq_zipWith] at hadd
  have hl : ks.length = ins.length := by rw [length_of_mapM_eq_ok hks, length_of_mapM_eq_ok hins]
  refine ⟨_, _, mapM_append_eq_ok_iff.2 ⟨ks, _, hks, mapM_take hks' n, rfl⟩,
    mapM_append_eq_ok_iff.2 ⟨ins, _, hins, mapM_take hins' n, rfl⟩, ?_⟩
  rw [← Groups.foldlM_add_eq_ok_iff] at hgs
  rw [List.zip_append hl, ← Groups.foldlM_add_eq_ok_iff, List.foldlM_append, hgs, ok_bind]
  exact hadd

/-! ## The row loop -/

/-- The tables that an aggregation comes to, with the rows that it has taken: it goes on with the first rows of a batch,
or with all of them. -/
inductive RowLoop (M : KeyMap) (keys : List Expr) (aggregates : List Aggregate) : List Row → GroupTable M → Prop
  | start : RowLoop M keys aggregates [] .empty
  | next {rows : List Row} {t t' : GroupTable M} {b : Batch} {n : Nat} : RowLoop M keys aggregates rows t →
    n ≤ b.rowCount → tablePrefix keys aggregates n t b = Indexed.lift (.ok t') →
      RowLoop M keys aggregates (rows ++ b.rows.take n) t'

variable {t : GroupTable M}

theorem RowLoop.exists_groups (h : RowLoop M keys aggregates rows t) :
    ∃ gs, t.Represents keys.length aggregates.length gs ∧ GroupsOf keys aggregates rows gs := by
  induction h with
  | start => exact ⟨[], GroupTable.represents_empty, groupsOf_nil⟩
  | @next rows t t' b n _ hn hstep ih =>
    obtain ⟨gs, hrep, hgs⟩ := ih
    have hagree := agrees_tablePrefix hrep n b
    rw [hstep] at hagree
    obtain ⟨gs', hgs', hrep'⟩ := hagree.exists_of_lift_ok
    exact ⟨gs', hrep', hgs.append hn hgs'⟩

theorem RowLoop.foldlM {bs : List Batch} {t' : GroupTable M} (h : RowLoop M keys aggregates rows t)
    (hbs : bs.foldlM (tableBatch keys aggregates) t = Indexed.lift (.ok t')) :
    RowLoop M keys aggregates (rows ++ Batch.allRows bs) t' := by
  -- From any table of the loop on, as the fold goes through the batches from the front.
  induction bs generalizing rows t with
  | nil =>
    cases Indexed.lift_injective hbs
    rw [Batch.allRows_nil, List.append_nil]
    exact h
  | cons b bs ih =>
    rw [List.foldlM_cons, Indexed.bind_eq_lift_ok_iff] at hbs
    obtain ⟨mid, hmid, hbs⟩ := hbs
    have hall := ih (h.next (Nat.le_refl _) hmid) hbs
    rwa [List.take_of_length_le (Nat.le_of_eq b.length_rows), List.append_assoc, ← Batch.allRows_cons] at hall

/-- The group of a key was fed with the rows that have the key, of which there is one. -/
theorem fed_of_groupOf {ks ins : List Row} {k : Row} {g : Group}
    (hks : (rows.mapM fun row => keys.mapM (·.onRow row)) = .ok ks)
    (hins : (rows.mapM fun row => aggregates.mapM (·.input.onRow row)) = .ok ins) (hk : k ∈ ks)
    (hg : Groups.groupOf (aggregates.map (·.function.start)) (ks.zip ins) k = .ok g) :
    withKey k (ks.zip rows) ≠ [] ∧ List.Forall₂ (fun a state => ∃ vs,
      (withKey k (ks.zip rows)).mapM a.input.onRow = .ok vs ∧ vs.foldlM Accumulator.feed a.function.start = .ok state)
      aggregates g.accumulators := by
  have hl := length_of_mapM_eq_ok hks
  constructor
  · rw [Ne, withKey_eq_nil_iff hl]
    exact not_not_intro hk
  · simp only [← mapM_onRow_input] at hins
    rw [← map_start] at hg
    exact List.forall₂_map_left_iff.1 (states_of_groupOf hl hins hg).2

/-- A table that holds the groups of rows satisfies the invariant. -/
theorem GroupsOf.exists_invariant (h : GroupsOf keys aggregates rows gs)
    (hrep : t.Represents keys.length aggregates.length gs) : ∃ ks, t.Invariant keys aggregates ks rows := by
  obtain ⟨ks, ins, hks, hins, hgs⟩ := h
  have hl := length_of_mapM_eq_ok hks
  have hli := length_of_mapM_eq_ok hins
  have hall := Groups.forall₂_of_ofPairs hgs
  rw [List.map_fst_zip (by omega)] at hall
  have hkeys : t.keys = ks.eraseDups := by
    rw [hrep.keys_eq, ← List.forall₂_eq_eq_eq, List.forall₂_map_left_iff]
    exact hall.flip.imp fun g k hg => hg.2
  have hnodup : t.keys.Nodup := by
    rw [hkeys]
    exact Groups.nodup_eraseDups ks
  -- Only the states need the rows; the rest is how a table holds groups with different keys.
  refine ⟨ks, hks, hnodup, hkeys, hrep.find?_eq_some_iff hnodup, hrep.length_eq, hrep.slot_lt, fun slot k hslot => ?_⟩
  have hmem : k ∈ ks := by
    rw [← List.mem_eraseDups, ← hkeys]
    exact List.mem_of_getElem? hslot
  rw [hkeys] at hslot
  obtain ⟨g, hg, hgroup, -⟩ := exists_getElem?_of_forall₂ hall hslot
  obtain ⟨hne, hfed⟩ := fed_of_groupOf hks hins hmem hgroup
  refine ⟨hne, g.accumulators, ?_, hfed⟩
  rw [hrep.accumulators_eq, List.getElem?_map, hg, Option.map_some]

/-! ## The returned batch -/

theorem finishesAs_of_toBatch {schema : Schema} {out : Batch} (hrep : t.Represents keys.length aggregates.length gs)
    (h : gs.toBatch schema (keys.length + aggregates.length) = .ok out) : t.FinishesAs out := by
  have hlengths : ∀ g ∈ gs, g.key.length + g.accumulators.length = keys.length + aggregates.length := by
    intro g hg
    rw [hrep.length_key g hg, hrep.length_accumulators g hg]
  obtain ⟨hrows, hcount⟩ := Groups.rows_of_toBatch hlengths h
  refine ⟨by rw [hcount, hrep.keys_eq, List.length_map], fun slot k states hk hstates => ?_⟩
  rw [hrep.keys_eq, List.getElem?_map, Option.map_eq_some_iff] at hk
  obtain ⟨g, hg, rfl⟩ := hk
  rw [hrep.accumulators_eq, List.getElem?_map, hg, Option.map_some, Option.some.injEq] at hstates
  subst hstates
  obtain ⟨row, hget, hrow⟩ := exists_getElem?_of_forall₂ (mapM_eq_ok_iff.1 hrows) hg
  obtain ⟨finals, hfinals, hrow⟩ := bind_eq_ok_iff.1 hrow
  cases hrow
  exact ⟨finals, hfinals, Batch.row_eq_ok_iff.2 hget⟩

end Physical

theorem GroupTable.Invariant.length_keys {M : KeyMap} {keys : List Physical.Expr}
    {aggregates : List Physical.Aggregate} {ks rows : List Row} {t : GroupTable M}
    (h : t.Invariant keys aggregates ks rows) : t.keys.length = ks.toFinset.card := by
  have hset : t.keys.toFinset = ks.toFinset := by
    ext k
    rw [List.mem_toFinset, List.mem_toFinset, h.firstSeen, List.mem_eraseDups]
  rw [← hset, List.toFinset_card_of_nodup h.distinct]

namespace Physical

theorem card_toFinset_of_nil {ks rows : List Row}
    (h : (rows.mapM fun row => ([] : List Expr).mapM (·.onRow row)) = .ok ks) (hne : rows ≠ []) :
    ks.toFinset.card = 1 := by
  have hks : ks = List.replicate rows.length [] := Except.ok.inj (h.symm.trans (mapM_const rows []))
  have hlen : rows.length ≠ 0 := fun hl => hne (List.length_eq_zero_iff.1 hl)
  rw [hks, List.toFinset_replicate_of_ne_zero hlen, Finset.card_singleton]

/-- Wherever an aggregation has come to in the rows of its input, its table has each key once, in the order of first
occurrence, found through the index at its place, with states that were fed the inputs of the rows of that key; and it
can go on with any rows within its lists. If it returns, it returns one batch, with a row for each key: there are as
many as there are different keys, none if there is no row, and one if there are rows but no keys to tell them apart. -/
theorem rowLoop_invariant (M : KeyMap) (keys : List Expr) (aggregates : List Aggregate) :
    (∀ rows t, RowLoop M keys aggregates rows t → (∃ ks, t.Invariant keys aggregates ks rows) ∧
      ∀ n b, ∃ outcome, tablePrefix keys aggregates n t b = Indexed.lift outcome) ∧
    ∀ input schema outs, (Plan.aggregate input schema keys aggregates).execute = .ok outs →
      ∃ ins gs ks t out, input.execute = .ok ins ∧ ins.foldlM (groupBatch keys aggregates) [] = .ok gs ∧
        RowLoop M keys aggregates (Batch.allRows ins) t ∧ t.Represents keys.length aggregates.length gs ∧
        t.Invariant keys aggregates ks (Batch.allRows ins) ∧ outs = [out] ∧ t.FinishesAs out ∧
        out.rowCount = ks.toFinset.card ∧ (out.rowCount = 0 ↔ Batch.allRows ins = []) ∧
        (keys = [] → Batch.allRows ins ≠ [] → out.rowCount = 1) := by
  constructor
  · intro rows t h
    obtain ⟨gs, hrep, hgs⟩ := h.exists_groups
    exact ⟨hgs.exists_invariant hrep, fun n b => (agrees_tablePrefix hrep n b).exists_lift⟩
  · intro input schema outs h
    obtain ⟨ins, hins, h⟩ := bind_eq_ok_iff.1 h
    obtain ⟨gs, hgs, h⟩ := bind_eq_ok_iff.1 h
    obtain ⟨out, hout, h⟩ := bind_eq_ok_iff.1 h
    cases h
    have hagree := agrees_foldlM_tableBatch (M := M) keys aggregates ins
    rw [hgs] at hagree
    obtain ⟨t, ht, hrep⟩ := hagree.exists_of_ok
    have hloop : RowLoop M keys aggregates (Batch.allRows ins) t := RowLoop.start.foldlM ht
    obtain ⟨gs', hrep', hgroups⟩ := hloop.exists_groups
    obtain ⟨ks, hinv⟩ := hgroups.exists_invariant hrep'
    have hfinish := finishesAs_of_toBatch hrep hout
    have hcount : out.rowCount = ks.toFinset.card := by rw [hfinish.rowCount_eq, hinv.length_keys]
    refine ⟨ins, gs, ks, t, out, hins, hgs, hloop, hrep, hinv, rfl, hfinish, hcount, ?_, ?_⟩
    · rw [hcount, Finset.card_eq_zero, List.toFinset_eq_empty_iff, ← List.length_eq_zero_iff,
        length_of_mapM_eq_ok hinv.computed, List.length_eq_zero_iff]
    · rintro rfl hne
      rw [hcount, card_toFinset_of_nil hinv.computed hne]

/-- Two of three deliveries, and what is returned of all. -/
theorem rowLoop_invariant_deliveries :
    let keys : List Expr := [.column 0]
    let aggregates : List Aggregate := [⟨.sum, .column 1⟩, ⟨.count, .column 0⟩]
    let schema : Schema := ⟨[⟨"item", .text, false⟩, ⟨"total", .int .w64, false⟩, ⟨"number", .int .w64, false⟩]⟩
    (∃ b t ks, (Table.deliveries 3).batches = [b] ∧ RowLoop .ofLists keys aggregates (b.rows.take 2) t ∧
      t.Invariant keys aggregates ks (b.rows.take 2) ∧ t.keys = [[.text "nut"], [.text "bolt"]] ∧
      t.accumulators = [[.sum (some (.ofInt .w64 1)), .count 1], [.sum (some (.ofInt .w64 2)), .count 1]]) ∧
    ∃ out ks, (Plan.aggregate (.scan (Table.deliveries 3).source []) schema keys aggregates).execute = .ok [out] ∧
      out.rowCount = ks.toFinset.card ∧
      ∃ t : GroupTable .ofLists, t.Invariant keys aggregates ks (Table.deliveries 3).rows ∧ t.FinishesAs out := by
  intro keys aggregates schema
  obtain ⟨hloop, hreturn⟩ := rowLoop_invariant .ofLists keys aggregates
  constructor
  · obtain ⟨b, t, hb, hn, hstep, hentries⟩ : ∃ (b : Batch) (t : GroupTable .ofLists),
        (Table.deliveries 3).batches = [b] ∧ 2 ≤ b.rowCount ∧
        tablePrefix keys aggregates 2 .empty b = Indexed.lift (.ok t) ∧ t.keys = [[.text "nut"], [.text "bolt"]] ∧
        t.accumulators = [[.sum (some (.ofInt .w64 1)), .count 1], [.sum (some (.ofInt .w64 2)), .count 1]] :=
      ⟨_, _, rfl, Nat.le_of_ble_eq_true rfl, rfl, rfl, rfl⟩
    have htwo : RowLoop .ofLists keys aggregates (b.rows.take 2) t := RowLoop.start.next hn hstep
    obtain ⟨⟨ks, hinv⟩, -⟩ := hloop _ _ htwo
    exact ⟨b, t, ks, hb, htwo, hinv, hentries⟩
  · obtain ⟨ins, gs, ks, t, out, hins, -, -, -, hinv, hout, hfinish, hcount, -⟩ :=
      hreturn (.scan (Table.deliveries 3).source []) schema _ rfl
    cases hins
    cases hout
    exact ⟨_, ks, rfl, hcount, t, hinv, hfinish⟩

end Physical

end ColumnarQuery
