import ColumnarQuery.Physical.Execution
import ColumnarQuery.Proofs.Aggregate.GroupRows
import ColumnarQuery.Proofs.Indexed
import Mathlib.Data.List.Nodup

/-!
# Groups behind an index of their keys

A `GroupTable` is a list of keys, a list of the states of each, and an index that tells where a key stands in both. One that
holds groups (`GroupTable.Represents`) stays within its lists, and does what is done to the groups
(`Represents.agrees_addRows`, `Represents.toBatch_eq_lift`).
-/

namespace ColumnarQuery

/-! ## Index -/

/-- Finite maps from keys to numbers. -/
structure KeyMap where
  Map : Type
  empty : Map
  find? : Map → Row → Option Nat
  insert : Map → Row → Nat → Map
  find?_empty : ∀ k, find? empty k = none
  find?_insert : ∀ m k n j, find? (insert m k n) j = if k = j then some n else find? m j

/-- Maps as lists, in which the number of a key stands with its first occurrence. -/
def KeyMap.ofLists : KeyMap where
  Map := List (Row × Nat)
  empty := []
  find? m k := m.lookup k
  insert m k n := (k, n) :: m
  find?_empty _ := rfl
  find?_insert m k n j := by
    rw [List.lookup_cons]
    by_cases h : k = j
    · simp [h]
    · have hne : (j == k) = false := by simpa using Ne.symm h
      simp [h, hne]

/-- The keys so far and the states of each, in the order in which they were entered, with the places of the keys. -/
structure GroupTable (M : KeyMap) where
  index : M.Map
  keys : List Row
  accumulators : List (List Accumulator)

namespace GroupTable
variable {M : KeyMap}

def empty : GroupTable M :=
  ⟨M.empty, [], []⟩

/-- The place of a key, and the table with it: a key that is not in the index is entered behind the others. -/
def enter (start : List Accumulator) (key : Row) (t : GroupTable M) : Nat × GroupTable M :=
  match M.find? t.index key with
  | some slot => (slot, t)
  | none =>
    (t.keys.length, ⟨M.insert t.index key t.keys.length, t.keys ++ [key], t.accumulators ++ [start]⟩)

def addRow (start : List Accumulator) (key inputs : Row) (t : GroupTable M) : Indexed (GroupTable M) := do
  let (slot, t) := t.enter start key
  let states ← Indexed.lift (feedAll (← Indexed.get t.accumulators slot) inputs)
  return { t with accumulators := t.accumulators.set slot states }

def addRows (start : List Accumulator) (keys inputs : List Column) :
    (n i : Nat) → GroupTable M → Indexed (GroupTable M)
  | 0, _, t => return t
  | n + 1, i, t => do
    let key ← Indexed.lift (keys.mapM (·.valueAt i))
    let values ← Indexed.lift (inputs.mapM (·.valueAt i))
    addRows start keys inputs n (i + 1) (← t.addRow start key values)

def output (keyCount i : Nat) (t : GroupTable M) : Indexed (List Value) :=
  if i < keyCount then t.keys.mapM fun key => Indexed.get key i
  else t.accumulators.mapM fun states => do Indexed.lift (← Indexed.get states (i - keyCount)).finish

def toBatch (schema : Schema) (keyCount aggregateCount : Nat) (t : GroupTable M) : Indexed Batch :=
  if schema.size = keyCount + aggregateCount then do
    let columns ← schema.fields.zipIdx.mapM fun (f, i) => do
      Indexed.lift (Column.ofValues f.type (← t.output keyCount i))
    Indexed.lift (Batch.ofColumns schema columns t.keys.length)
  else Indexed.lift (.error (.invalidSchema (.aggregateColumns schema.size (keyCount + aggregateCount))))

/-! ## One more row -/

/-- The table holds the groups, whose keys and states have the given numbers. -/
structure Represents (keyCount aggregateCount : Nat) (t : GroupTable M) (gs : Groups) : Prop where
  keys_eq : t.keys = gs.map Group.key
  accumulators_eq : t.accumulators = gs.map Group.accumulators
  find?_eq : ∀ k, M.find? t.index k = t.keys.findIdx? (· = k)
  length_key : ∀ g ∈ gs, g.key.length = keyCount
  length_accumulators : ∀ g ∈ gs, g.accumulators.length = aggregateCount

end GroupTable

namespace Groups
variable {start : List Accumulator} {key inputs : Row} {gs : Groups}

theorem add_of_findIdx?_eq_none (h : (gs.map Group.key).findIdx? (· = key) = none) :
    gs.add start key inputs = (fun states => gs ++ [⟨key, states⟩]) <$> feedAll start inputs := by
  induction gs with
  | nil =>
    rw [add]
    cases feedAll start inputs <;> rfl
  | cons g gs ih =>
    rw [List.map_cons, List.findIdx?_cons] at h
    by_cases hkey : g.key = key
    · simp [hkey] at h
    · have hrest : (gs.map Group.key).findIdx? (· = key) = none := by simpa [hkey] using h
      rw [add, if_neg hkey, ih hrest]
      cases feedAll start inputs <;> rfl

theorem add_of_findIdx?_eq_some (start : List Accumulator) (inputs : Row) {i : Nat}
    (h : (gs.map Group.key).findIdx? (· = key) = some i) :
    ∃ g, gs[i]? = some g ∧ g.key = key ∧
      gs.add start key inputs = (fun states => gs.set i ⟨key, states⟩) <$> feedAll g.accumulators inputs := by
  induction gs generalizing i with
  | nil => cases h
  | cons g gs ih =>
    rw [List.map_cons, List.findIdx?_cons] at h
    by_cases hkey : g.key = key
    · have hi : i = 0 := by simpa [hkey, eq_comm] using h
      subst hi
      refine ⟨g, rfl, hkey, ?_⟩
      rw [add, if_pos hkey]
      cases feedAll g.accumulators inputs <;> rfl
    · obtain ⟨j, hj, rfl⟩ : ∃ j, (gs.map Group.key).findIdx? (· = key) = some j ∧ j + 1 = i := by
        simpa [hkey] using h
      obtain ⟨g', hg', hk', hadd⟩ := ih hj
      refine ⟨g', hg', hk', ?_⟩
      rw [add, if_neg hkey, hadd]
      cases feedAll g'.accumulators inputs <;> rfl

end Groups

theorem length_feedAll {as bs : List Accumulator} {vs : List Value} (h : feedAll as vs = .ok bs)
    (hl : as.length = vs.length) : bs.length = as.length := by
  rw [length_of_mapM_eq_ok h, List.length_zip, hl, Nat.min_self]

namespace GroupTable
variable {M : KeyMap} {keyCount aggregateCount : Nat} {t : GroupTable M} {gs : Groups} {start states : List Accumulator}
  {key inputs : Row}

theorem represents_empty : Represents keyCount aggregateCount (empty : GroupTable M) [] where
  keys_eq := rfl
  accumulators_eq := rfl
  find?_eq := M.find?_empty
  length_key := fun _ hg => nomatch hg
  length_accumulators := fun _ hg => nomatch hg

namespace Represents

theorem length_eq (h : t.Represents keyCount aggregateCount gs) : t.accumulators.length = t.keys.length := by
  rw [h.keys_eq, h.accumulators_eq, List.length_map, List.length_map]

theorem find?_eq_some_iff (h : t.Represents keyCount aggregateCount gs) (hnodup : t.keys.Nodup) (k : Row) (slot : Nat) :
    M.find? t.index k = some slot ↔ t.keys[slot]? = some k := by
  rw [h.find?_eq, List.findIdx?_eq_some_iff_getElem, List.getElem?_eq_some_iff]
  constructor
  · rintro ⟨hi, hk, -⟩
    exact ⟨hi, of_decide_eq_true hk⟩
  · rintro ⟨hi, rfl⟩
    refine ⟨hi, decide_eq_true rfl, fun j hj hk => ?_⟩
    have hij := hnodup.getElem_inj_iff.1 (of_decide_eq_true hk)
    omega

theorem slot_lt (h : t.Represents keyCount aggregateCount gs) (start : List Accumulator) (key : Row) :
    (t.enter start key).1 < (t.enter start key).2.accumulators.length := by
  unfold enter
  split
  · rename_i slot hfind
    rw [h.find?_eq, List.findIdx?_eq_some_iff_getElem] at hfind
    rw [h.length_eq]
    exact hfind.1
  · simp [h.length_eq]

theorem append (h : t.Represents keyCount aggregateCount gs) (hnew : t.keys.findIdx? (· = key) = none)
    (hk : key.length = keyCount) (hs : states.length = aggregateCount) :
    Represents keyCount aggregateCount
      (⟨M.insert t.index key t.keys.length, t.keys ++ [key], t.accumulators ++ [states]⟩ : GroupTable M)
      (gs ++ [⟨key, states⟩]) where
  keys_eq := by rw [h.keys_eq, List.map_append, List.map_singleton]
  accumulators_eq := by rw [h.accumulators_eq, List.map_append, List.map_singleton]
  find?_eq := by
    intro k
    rw [M.find?_insert, h.find?_eq, List.findIdx?_append]
    by_cases hkey : key = k
    · subst hkey
      simp [hnew]
    · simp [hkey]
  length_key := by
    rw [List.forall_mem_append, List.forall_mem_singleton]
    exact ⟨h.length_key, hk⟩
  length_accumulators := by
    rw [List.forall_mem_append, List.forall_mem_singleton]
    exact ⟨h.length_accumulators, hs⟩

theorem set {i : Nat} {g : Group} (h : t.Represents keyCount aggregateCount gs) (hg : gs[i]? = some g)
    (hs : states.length = aggregateCount) :
    Represents keyCount aggregateCount { t with accumulators := t.accumulators.set i states }
      (gs.set i ⟨g.key, states⟩) where
  keys_eq := by
    obtain ⟨hi, rfl⟩ := List.getElem?_eq_some_iff.1 hg
    have hkey : (gs.map Group.key).set i gs[i].key = gs.map Group.key := by
      rw [← List.map_set, List.set_getElem_self]
    rw [List.map_set, hkey]
    exact h.keys_eq
  accumulators_eq := by rw [h.accumulators_eq, List.map_set]
  find?_eq := h.find?_eq
  length_key := by
    intro g' hg'
    rcases List.mem_or_eq_of_mem_set hg' with hmem | rfl
    · exact h.length_key g' hmem
    · exact h.length_key g (List.mem_of_getElem? hg)
  length_accumulators := by
    intro g' hg'
    rcases List.mem_or_eq_of_mem_set hg' with hmem | rfl
    · exact h.length_accumulators g' hmem
    · exact hs

end Represents

/-- A table stays within its lists where it takes a row, and takes it as the groups do. -/
theorem Represents.agrees_addRow (h : t.Represents keyCount aggregateCount gs) (hk : key.length = keyCount)
    (hs : start.length = aggregateCount) (hi : inputs.length = aggregateCount) :
    Indexed.Agrees (Represents keyCount aggregateCount) (t.addRow start key inputs) (gs.add start key inputs) := by
  unfold addRow enter
  -- The index and the search through the groups take the same branch, since the index tells where a key stands first.
  cases hfind : M.find? t.index key with
  | none =>
    rw [h.find?_eq] at hfind
    have hget : (t.accumulators ++ [start])[t.keys.length]? = some start := by simp [← h.length_eq]
    rw [Groups.add_of_findIdx?_eq_none (h.keys_eq ▸ hfind)]
    simp only [Indexed.get_eq_lift hget, Indexed.lift_ok_bind]
    cases hstates : feedAll start inputs with
    | error e => exact .error
    | ok states =>
      refine .ok ?_
      have hset : (t.accumulators ++ [start]).set t.keys.length states = t.accumulators ++ [states] := by
        simp [← h.length_eq]
      rw [hset]
      exact h.append hfind hk (by rw [length_feedAll hstates (hs.trans hi.symm), hs])
  | some slot =>
    rw [h.find?_eq, h.keys_eq] at hfind
    obtain ⟨g, hg, rfl, hadd⟩ := Groups.add_of_findIdx?_eq_some start inputs hfind
    have hget : t.accumulators[slot]? = some g.accumulators := by
      rw [h.accumulators_eq, List.getElem?_map, hg, Option.map_some]
    have hgl := h.length_accumulators g (List.mem_of_getElem? hg)
    rw [hadd]
    simp only [Indexed.get_eq_lift hget, Indexed.lift_ok_bind]
    cases hstates : feedAll g.accumulators inputs with
    | error e => exact .error
    | ok states => exact .ok (h.set hg (by rw [length_feedAll hstates (hgl.trans hi.symm), hgl]))

/-! ## The rows of columns -/

theorem Represents.agrees_addRows {keys inputs : List Column} (h : t.Represents keyCount aggregateCount gs)
    (hk : keys.length = keyCount) (hs : start.length = aggregateCount) (hi : inputs.length = aggregateCount)
    (n i : Nat) :
    Indexed.Agrees (Represents keyCount aggregateCount) (t.addRows start keys inputs n i)
      (gs.addRows start keys inputs n i) := by
  induction n generalizing i t gs with
  | zero => exact .ok h
  | succ n ih =>
    refine .lift_bind fun key hkey => .lift_bind fun values hvalues => ?_
    have hadd := h.agrees_addRow ((length_of_mapM_eq_ok hkey).trans hk) hs ((length_of_mapM_eq_ok hvalues).trans hi)
    exact hadd.bind fun t' gs' h' => ih h' (i + 1)

/-! ## Output -/

theorem Represents.output_eq_lift {i : Nat} (h : t.Represents keyCount aggregateCount gs) (hi : i < keyCount + aggregateCount) :
    t.output keyCount i = Indexed.lift (gs.mapM (·.output i)) := by
  unfold output
  split
  · rename_i hlt
    rw [h.keys_eq, List.mapM_map]
    refine Indexed.mapM_eq_lift fun g hg => ?_
    have hin : i < g.key.length := by rw [h.length_key g hg]; exact hlt
    have hv := List.getElem?_eq_getElem hin
    rw [Function.comp_apply, Indexed.get_eq_lift hv, Group.output_of_getElem?_key hv]
  · rename_i hge
    rw [h.accumulators_eq, List.mapM_map]
    refine Indexed.mapM_eq_lift fun g hg => ?_
    have hin : i - keyCount < g.accumulators.length := by rw [h.length_accumulators g hg]; omega
    have ha := List.getElem?_eq_getElem hin
    have houtput := Group.output_of_getElem?_accumulators ha
    rw [h.length_key g hg, Nat.add_sub_cancel' (by omega)] at houtput
    rw [Function.comp_apply, Indexed.get_eq_lift ha, Indexed.lift_ok_bind, houtput]

theorem Represents.toBatch_eq_lift {schema : Schema} (h : t.Represents keyCount aggregateCount gs) :
    t.toBatch schema keyCount aggregateCount = Indexed.lift (gs.toBatch schema (keyCount + aggregateCount)) := by
  unfold toBatch Groups.toBatch
  split
  · rename_i hsize
    have hcolumn : ∀ p ∈ schema.fields.zipIdx,
        (do Indexed.lift (Column.ofValues p.1.type (← t.output keyCount p.2)) : Indexed Column) =
          Indexed.lift (do Column.ofValues p.1.type (← gs.mapM (·.output p.2))) := by
      intro p hp
      have hlt : p.2 < keyCount + aggregateCount := by
        rw [← hsize]
        exact (List.getElem?_eq_some_iff.1 (List.mem_zipIdx_iff_getElem?.1 hp)).1
      rw [h.output_eq_lift hlt, Indexed.lift_bind]
    have hlen : t.keys.length = gs.length := by rw [h.keys_eq, List.length_map]
    rw [Indexed.mapM_eq_lift hcolumn, Indexed.lift_bind, hlen]
  · rfl

end GroupTable

end ColumnarQuery
