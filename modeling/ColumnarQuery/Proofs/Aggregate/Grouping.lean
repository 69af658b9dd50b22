import ColumnarQuery.Proofs.Aggregate.Accumulation
import ColumnarQuery.Proofs.Batch.Rows
import Mathlib.Data.List.Induction

/-!
# Groups of rows by key

`Groups.ofPairs` are the groups of rows of inputs that stand with their keys, one per key in the order in which the keys
first occur. Taking rows one by one makes these groups (`Groups.foldlM_add_eq_ok_iff`).
-/

namespace ColumnarQuery

/-- The rows that stand with a key. -/
def withKey (key : Row) (pairs : List (Row × Row)) : List Row :=
  (pairs.filter (·.1 = key)).map Prod.snd

theorem withKey_append (key : Row) (pairs rest : List (Row × Row)) :
    withKey key (pairs ++ rest) = withKey key pairs ++ withKey key rest := by
  unfold withKey
  rw [List.filter_append, List.map_append]

theorem withKey_of_not_mem {key : Row} {pairs : List (Row × Row)} (h : key ∉ pairs.map Prod.fst) :
    withKey key pairs = [] := by
  unfold withKey
  rw [List.map_eq_nil_iff, List.filter_eq_nil_iff]
  intro p hp hkey
  exact h (List.mem_map.2 ⟨p, hp, of_decide_eq_true hkey⟩)

theorem withKey_eq_nil_iff {k : Row} {keys rows : List Row} (hl : keys.length = rows.length) :
    withKey k (keys.zip rows) = [] ↔ k ∉ keys := by
  unfold withKey
  rw [List.map_eq_nil_iff, List.filter_eq_nil_iff]
  constructor
  · intro h hk
    obtain ⟨i, hi, rfl⟩ := List.getElem_of_mem hk
    have hz : i < (keys.zip rows).length := by rw [List.length_zip]; omega
    have hmem := h _ (List.getElem_mem hz)
    simp at hmem
  · intro h p hp hkey
    rw [← of_decide_eq_true hkey] at h
    exact h (List.of_mem_zip hp).1

namespace Groups

/-- The group of a key among rows of inputs. -/
def groupOf (start : List Accumulator) (pairs : List (Row × Row)) (key : Row) : Except Error Group :=
  Group.mk key <$> (withKey key pairs).foldlM feedAll start

/-- The groups of rows of inputs. -/
def ofPairs (start : List Accumulator) (pairs : List (Row × Row)) : Except Error Groups :=
  (pairs.map Prod.fst).eraseDups.mapM (groupOf start pairs)

/-! ## One more row -/

/-- A row changes the states of its key, which is a new one behind the others if it did not occur. -/
theorem add_eq_mapM {start : List Accumulator} {key inputs : Row} {states : Row → Except Error (List Accumulator)}
    {keys : List Row} {gs : Groups} (hnodup : keys.Nodup) (hnew : key ∉ keys → states key = .ok start)
    (h : keys.mapM (fun k => Group.mk k <$> states k) = .ok gs) :
    gs.add start key inputs =
      (if key ∈ keys then keys else keys ++ [key]).mapM fun k =>
        Group.mk k <$> if k = key then states k >>= (feedAll · inputs) else states k := by
  induction keys generalizing gs with
  | nil =>
    cases h
    rw [if_neg List.not_mem_nil, List.nil_append, List.mapM_cons, if_pos rfl, hnew List.not_mem_nil, ok_bind]
    unfold add
    cases feedAll start inputs <;> rfl
  | cons k ks ih =>
    obtain ⟨hk, hks⟩ := List.nodup_cons.1 hnodup
    rw [List.mapM_cons] at h
    obtain ⟨g, hg, h⟩ := bind_eq_ok_iff.1 h
    obtain ⟨gs, hgs, h⟩ := bind_eq_ok_iff.1 h
    cases h
    obtain ⟨accs, haccs, rfl⟩ := map_eq_ok_iff.1 hg
    by_cases hkey : k = key
    · subst hkey
      have hrest : ks.mapM (fun j => Group.mk j <$> if j = k then states j >>= (feedAll · inputs) else states j) =
          ks.mapM (fun j => Group.mk j <$> states j) := by
        refine mapM_congr fun j hj => ?_
        rw [if_neg (ne_of_mem_of_not_mem hj hk)]
      rw [if_pos List.mem_cons_self, List.mapM_cons, hrest, hgs, if_pos rfl, haccs, ok_bind, add, if_pos rfl]
      cases feedAll accs inputs <;> rfl
    · have hnew' : key ∉ ks → states key = .ok start := by
        intro hmem
        exact hnew fun hin => hmem (List.mem_of_ne_of_mem (Ne.symm hkey) hin)
      have hkeys : (if key ∈ k :: ks then k :: ks else k :: ks ++ [key]) =
          k :: if key ∈ ks then ks else ks ++ [key] := by
        have hne : key ≠ k := Ne.symm hkey
        by_cases hmem : key ∈ ks <;> simp [hmem, hne]
      rw [hkeys, List.mapM_cons, if_neg hkey, haccs, map_ok, ok_bind, add, if_neg hkey, ih hks hnew' hgs]

theorem eraseDups_append_singleton (keys : List Row) (key : Row) :
    (keys ++ [key]).eraseDups = if key ∈ keys.eraseDups then keys.eraseDups else keys.eraseDups ++ [key] := by
  rw [List.eraseDups_append]
  by_cases h : key ∈ keys
  · simp [h, List.removeAll]
  · simp [h, List.removeAll, List.eraseDups_cons]

theorem nodup_eraseDups (keys : List Row) : keys.eraseDups.Nodup := by
  induction keys using List.reverseRecOn with
  | nil => exact List.nodup_nil
  | append_singleton keys key ih =>
    rw [eraseDups_append_singleton]
    by_cases h : key ∈ keys.eraseDups
    · rw [if_pos h]
      exact ih
    · rw [if_neg h]
      refine List.nodup_append.2 ⟨ih, List.pairwise_singleton _ key, ?_⟩
      intro k hk l hl
      rw [List.mem_singleton.1 hl]
      exact ne_of_mem_of_not_mem hk h

/-! ## Rows one by one -/

theorem groupOf_append_singleton (start : List Accumulator) (pairs : List (Row × Row)) (key inputs k : Row) :
    groupOf start (pairs ++ [(key, inputs)]) k =
      Group.mk k <$> if k = key then (withKey k pairs).foldlM feedAll start >>= (feedAll · inputs)
        else (withKey k pairs).foldlM feedAll start := by
  unfold groupOf
  rw [withKey_append, List.foldlM_append]
  by_cases h : k = key
  · subst h
    rw [if_pos rfl]
    have hone : withKey k [(k, inputs)] = [inputs] := by simp [withKey]
    simp only [hone, List.foldlM_cons, List.foldlM_nil, bind_pure]
  · rw [if_neg h]
    have hnone : withKey k [(key, inputs)] = [] := withKey_of_not_mem (by simpa using h)
    simp only [hnone, List.foldlM_nil, bind_pure]

/-- One more row makes the groups with that row. -/
theorem add_of_ofPairs {start : List Accumulator} {pairs : List (Row × Row)} {gs : Groups} (key inputs : Row)
    (h : ofPairs start pairs = .ok gs) : add start key inputs gs = ofPairs start (pairs ++ [(key, inputs)]) := by
  have hnew : key ∉ (pairs.map Prod.fst).eraseDups → (withKey key pairs).foldlM feedAll start = .ok start := by
    intro hkey
    rw [List.mem_eraseDups] at hkey
    rw [withKey_of_not_mem hkey]
    rfl
  rw [add_eq_mapM (nodup_eraseDups _) hnew h, ofPairs, List.map_append, List.map_singleton, eraseDups_append_singleton]
  exact mapM_congr fun k _ => (groupOf_append_singleton start pairs key inputs k).symm

/-- The groups of the first rows exist if those of all rows do: their keys occur among all keys, and their states are
prefixes of those states. -/
theorem exists_ofPairs_of_append {start : List Accumulator} {pairs rest : List (Row × Row)} {gs : Groups}
    (h : ofPairs start (pairs ++ rest) = .ok gs) : ∃ gs₀, ofPairs start pairs = .ok gs₀ := by
  refine exists_mapM_eq_ok_iff.2 fun k hk => ?_
  have hk' : k ∈ ((pairs ++ rest).map Prod.fst).eraseDups := by
    rw [List.mem_eraseDups] at hk ⊢
    rw [List.map_append]
    exact List.mem_append_left _ hk
  obtain ⟨g, hg⟩ := exists_mapM_eq_ok_iff.1 ⟨gs, h⟩ k hk'
  rw [groupOf, withKey_append, List.foldlM_append] at hg
  obtain ⟨accs, haccs, -⟩ := map_eq_ok_iff.1 hg
  obtain ⟨before, hbefore, -⟩ := bind_eq_ok_iff.1 haccs
  exact ⟨⟨k, before⟩, by rw [groupOf, hbefore, map_ok]⟩

/-- Taking rows one by one makes the groups of their keys. -/
theorem foldlM_add_eq_ok_iff {start : List Accumulator} {pairs : List (Row × Row)} {gs : Groups} :
    pairs.foldlM (fun gs p => add start p.1 p.2 gs) [] = .ok gs ↔ ofPairs start pairs = .ok gs := by
  induction pairs using List.reverseRecOn generalizing gs with
  | nil => rfl
  | append_singleton pairs p ih =>
    obtain ⟨key, inputs⟩ := p
    rw [List.foldlM_append, bind_eq_ok_iff]
    simp only [List.foldlM_cons, List.foldlM_nil, bind_pure]
    constructor
    · intro h
      obtain ⟨gs₀, hgs₀, h⟩ := h
      rw [← add_of_ofPairs key inputs (ih.1 hgs₀), h]
    · intro h
      obtain ⟨gs₀, hgs₀⟩ := exists_ofPairs_of_append h
      exact ⟨gs₀, ih.2 hgs₀, by rw [add_of_ofPairs key inputs hgs₀, h]⟩

/-! ## The rows of columns -/

section Columns
variable {start : List Accumulator} {keys inputs : List Column} {n : Nat} (hk : ∀ c ∈ keys, c.length = n)
  (hi : ∀ c ∈ inputs, c.length = n)
include hk hi

theorem length_zip_rowsOf :
    ((rowsOf n (keys.map Column.toList)).zip (rowsOf n (inputs.map Column.toList))).length = n := by
  rw [List.length_zip, length_rowsOf (length_of_mem_map_toList hk), length_rowsOf (length_of_mem_map_toList hi),
    Nat.min_self]

theorem addRows_eq_foldlM_take {m i : Nat} {gs : Groups} (hm : m + i ≤ n) :
    addRows start keys inputs m i gs =
      ((((rowsOf n (keys.map Column.toList)).zip (rowsOf n (inputs.map Column.toList))).drop i).take m).foldlM
        (fun gs p => add start p.1 p.2 gs) gs := by
  have hlen := length_zip_rowsOf hk hi
  induction m generalizing i gs with
  | zero => rfl
  | succ m ih =>
    have hin : i < n := by omega
    have hklen : i < (rowsOf n (keys.map Column.toList)).length := by
      rw [length_rowsOf (length_of_mem_map_toList hk)]
      exact hin
    have hilen : i < (rowsOf n (inputs.map Column.toList)).length := by
      rw [length_rowsOf (length_of_mem_map_toList hi)]
      exact hin
    have hkey := (mapM_valueAt_eq_ok_iff hk hin).2 (List.getElem?_eq_getElem hklen)
    have hinput := (mapM_valueAt_eq_ok_iff hi hin).2 (List.getElem?_eq_getElem hilen)
    rw [addRows, hkey, ok_bind, hinput, ok_bind, List.drop_eq_getElem_cons (by omega), List.take_succ_cons,
      List.foldlM_cons, List.getElem_zip]
    congr 1
    funext gs
    exact ih (by omega)

theorem addRows_eq_foldlM {gs : Groups} :
    addRows start keys inputs n 0 gs =
      ((rowsOf n (keys.map Column.toList)).zip (rowsOf n (inputs.map Column.toList))).foldlM
        (fun gs p => add start p.1 p.2 gs) gs := by
  rw [addRows_eq_foldlM_take hk hi (by omega), List.drop_zero,
    List.take_of_length_le (Nat.le_of_eq (length_zip_rowsOf hk hi))]

end Columns

end Groups

end ColumnarQuery
