import Mathlib.Data.List.Induction
import ColumnarQuery.Proofs.Catalog.Entries
import ColumnarQuery.Proofs.Plan.Resolution
import ColumnarQuery.Proofs.Source.Loading

/-!
# Catalogs over a history

A history is a list of changes, made in place one after another and some of them in vain. The sources of a catalog are those
that stand in its history (`Catalog.source?_after_eq_some_iff`), and `Catalog.remembers_after` tells all its answers from
there.
-/

namespace ColumnarQuery

/-! ## Frames -/

/-- A frame is made of another by further steps. -/
inductive Frame.Extends (f : Frame) : Frame → Prop
  | refl : Extends f f
  | project {g : Frame} (exprs : List Logical.Expr) : Extends f g → Extends f (g.project exprs)
  | filter {g : Frame} (predicate : Logical.Expr) : Extends f g → Extends f (g.filter predicate)
  | aggregate {g : Frame} (keys : List Logical.Expr) (aggregates : List Logical.Aggregate) :
    Extends f g → Extends f (g.aggregate keys aggregates)

theorem Frame.Extends.reading {f g : Frame} {source : Source} (h : f.Extends g)
    (hf : f.plan.reading source = f.plan) : g.plan.reading source = g.plan := by
  induction h with
  | refl => exact hf
  | project exprs _ ih => exact congrArg (Logical.Plan.project · exprs) ih
  | filter predicate _ ih => exact congrArg (Logical.Plan.filter · predicate) ih
  | aggregate keys aggregates _ ih => exact congrArg (Logical.Plan.aggregate · keys aggregates) ih

namespace Catalog

/-! ## Changes in place -/

/-- A change of a catalog. -/
inductive Change where
  | register (name : String) (source : Source)
  | registerTable (name : String) (schema : Schema) (rows : List Row)
  | deregister (name : String)

/-- Computations on a catalog in place. What one of them has changed before it fails stays changed. -/
abbrev InPlace := ExceptT Error (StateM Catalog)

def Change.inPlace : Change → InPlace (Option Source)
  | register name source => do
    modify (·.register name source)
    return none
  | registerTable name schema rows => do
    let table ← Table.ofRows schema rows (← get).batchSize
    modify (·.register name table.source)
    return none
  | deregister name => modifyGet (·.deregister name)

/-- The answer of a change, and the catalog that it leaves. -/
def perform (c : Catalog) (change : Change) : Except Error (Option Source) × Catalog :=
  (change.inPlace.run.run c).run

/-- The catalog after a history of changes, each of which is made whether or not one before it failed. -/
def after (c : Catalog) (history : List Change) : Catalog :=
  history.foldl (fun c change => (c.perform change).2) c

/-- A change puts a source under a name, in a catalog that makes batches of the given size. -/
inductive Change.Registers (size : Nat) (name : String) : Change → Source → Prop
  | source (source : Source) : Registers size name (.register name source) source
  | table {schema : Schema} {rows : List Row} {t : Table} :
    Table.ofRows schema rows size = .ok t → Registers size name (.registerTable name schema rows) t.source

/-! ## Single changes -/

section Steps
variable {c : Catalog} {change : Change} {name : String} {source : Source}

theorem Change.Registers.unique {size : Nat} {name' : String} {source' : Source} (h : change.Registers size name source)
    (h' : change.Registers size name' source') : name' = name ∧ source' = source := by
  cases h with
  | source =>
    cases h'
    exact ⟨rfl, rfl⟩
  | table ht =>
    cases h' with
    | table ht' => rw [Except.ok.inj (ht'.symm.trans ht)]; exact ⟨rfl, rfl⟩

/-- Made in place, the registration of a table does what it does as a function, or fails before it changes anything. -/
theorem perform_registerTable (c : Catalog) (name : String) (schema : Schema) (rows : List Row) :
    c.perform (.registerTable name schema rows) =
      match c.registerTable name schema rows with
      | .ok c' => (.ok none, c')
      | .error e => (.error e, c) := by
  have hsteps : c.perform (.registerTable name schema rows) =
      ((do
        let table ← Table.ofRows schema rows c.batchSize
        modify (·.register name table.source)
        return none : InPlace (Option Source)).run.run c).run := rfl
  rw [hsteps, registerTable]
  cases Table.ofRows schema rows c.batchSize with
  | ok t => rfl
  | error e => rfl

/-- What a change can do: put a source under a name, remove a name, or fail and leave the catalog as it was. -/
theorem perform_cases (c : Catalog) (change : Change) :
    (∃ name source, change.Registers c.batchSize name source ∧ c.perform change = (.ok none, c.register name source)) ∨
    (∃ name, change = .deregister name ∧ c.perform change = (.ok (c.source? name), (c.deregister name).2)) ∨
    ((∀ name, change ≠ .deregister name) ∧ (∀ name source, ¬ change.Registers c.batchSize name source) ∧
      ∃ e, c.perform change = (.error e, c)) := by
  cases change with
  | register name source => exact .inl ⟨name, source, .source source, rfl⟩
  | registerTable name schema rows =>
    rw [perform_registerTable, registerTable]
    cases ht : Table.ofRows schema rows c.batchSize with
    | ok t => exact .inl ⟨name, t.source, .table ht, rfl⟩
    | error e =>
      refine .inr (.inr ⟨nofun, fun name source h => ?_, e, rfl⟩)
      cases h with
      | table h => rw [ht] at h; cases h
  | deregister name => exact .inr (.inl ⟨name, rfl, rfl⟩)

theorem Ascending.perform (h : c.Ascending) (change : Change) : (c.perform change).2.Ascending := by
  rcases perform_cases c change with ⟨name, source, -, hperform⟩ | ⟨name, -, hperform⟩ | ⟨-, -, e, hperform⟩
  · rw [hperform]
    exact h.register name source
  · rw [hperform]
    exact h.deregister name
  · rw [hperform]
    exact h

theorem batchSize_perform (c : Catalog) (change : Change) : (c.perform change).2.batchSize = c.batchSize := by
  rcases perform_cases c change with ⟨name, source, -, hperform⟩ | ⟨name, -, hperform⟩ | ⟨-, -, e, hperform⟩
  all_goals rw [hperform]
  all_goals rfl

theorem eq_of_perform_eq_error {c' : Catalog} {e : Error} (h : c.perform change = (.error e, c')) : c' = c := by
  rcases perform_cases c change with ⟨name, source, -, hperform⟩ | ⟨name, -, hperform⟩ | ⟨-, -, e', hperform⟩
  · rw [hperform] at h
    cases h
  · rw [hperform] at h
    cases h
  · rw [hperform] at h
    exact (Prod.mk.inj h).2.symm

theorem exists_perform_eq_ok_iff : (∃ answer, (c.perform change).1 = .ok answer) ↔
    (∃ name, change = .deregister name) ∨ ∃ name source, change.Registers c.batchSize name source := by
  rcases perform_cases c change with ⟨name, source, hreg, hperform⟩ | ⟨name, hremove, hperform⟩ | ⟨hne, hnot, e, hperform⟩
  · rw [hperform]
    exact iff_of_true ⟨none, rfl⟩ (.inr ⟨name, source, hreg⟩)
  · rw [hperform]
    exact iff_of_true ⟨c.source? name, rfl⟩ (.inl ⟨name, hremove⟩)
  · rw [hperform]
    refine iff_of_false nofun ?_
    rintro (⟨name, hremove⟩ | ⟨name, source, hreg⟩)
    · exact hne name hremove
    · exact hnot name source hreg

/-- The source of a name after a change is the one that the change puts there, none if it removes the name, and else the
one before. -/
theorem source?_perform (c : Catalog) (change : Change) (name : String) :
    (∃ source, change.Registers c.batchSize name source ∧ (c.perform change).2.source? name = some source) ∨
    (change = .deregister name ∧ (c.perform change).2.source? name = none) ∨
    (change ≠ .deregister name ∧ (∀ source, ¬ change.Registers c.batchSize name source) ∧
      (c.perform change).2.source? name = c.source? name) := by
  rcases perform_cases c change with ⟨n, s, hreg, hperform⟩ | ⟨n, rfl, hperform⟩ | ⟨hne, hnot, e, hperform⟩
  · rw [hperform, source?_register]
    by_cases hn : name = n
    · subst hn
      exact .inl ⟨s, hreg, if_pos rfl⟩
    · refine .inr (.inr ⟨?_, fun s' h => hn (hreg.unique h).1, if_neg hn⟩)
      rintro rfl
      cases hreg
  · rw [hperform, source?_deregister]
    by_cases hn : name = n
    · subst hn
      exact .inr (.inl ⟨rfl, if_pos rfl⟩)
    · exact .inr (.inr ⟨fun h => hn (Change.deregister.inj h).symm, nofun, if_neg hn⟩)
  · rw [hperform]
    exact .inr (.inr ⟨hne name, hnot name, rfl⟩)

end Steps

/-! ## Histories -/

/-- The change is the last one in the history that puts a source under the name, and the name is not removed after it. -/
def Stands (size : Nat) (history : List Change) (name : String) (change : Change) (source : Source) : Prop :=
  ∃ before after, history = before ++ change :: after ∧ change.Registers size name source ∧
    ∀ later ∈ after, later ≠ .deregister name ∧ ∀ s, ¬ later.Registers size name s

section Histories
variable {c : Catalog} {size : Nat} {history : List Change} {change last : Change} {name : String} {source : Source}

theorem stands_concat_iff : Stands size (history ++ [last]) name change source ↔
    (change = last ∧ last.Registers size name source) ∨
    ((last ≠ .deregister name ∧ ∀ s, ¬ last.Registers size name s) ∧ Stands size history name change source) := by
  constructor
  · rintro ⟨before, after, hsplit, hreg, hlater⟩
    rcases List.eq_nil_or_concat' after with rfl | ⟨after, final, rfl⟩
    · obtain ⟨-, hlast⟩ := List.append_inj' hsplit rfl
      obtain rfl := List.singleton_inj.1 hlast
      exact .inl ⟨rfl, hreg⟩
    · rw [← List.cons_append, ← List.append_assoc] at hsplit
      obtain ⟨hhistory, hlast⟩ := List.append_inj' hsplit rfl
      obtain rfl := List.singleton_inj.1 hlast
      rw [List.forall_mem_append, List.forall_mem_singleton] at hlater
      exact .inr ⟨hlater.2, before, after, hhistory, hreg, hlater.1⟩
  · rintro (⟨rfl, hreg⟩ | ⟨hlast, before, after, rfl, hreg, hlater⟩)
    · exact ⟨history, [], rfl, hreg, nofun⟩
    · refine ⟨before, after ++ [last], by simp, hreg, ?_⟩
      rw [List.forall_mem_append, List.forall_mem_singleton]
      exact ⟨hlater, hlast⟩

theorem after_concat (c : Catalog) (history : List Change) (change : Change) :
    c.after (history ++ [change]) = ((c.after history).perform change).2 := by
  rw [after, List.foldl_append]
  rfl

theorem Ascending.after (h : c.Ascending) (history : List Change) : (c.after history).Ascending := by
  induction history using List.reverseRecOn with
  | nil => exact h
  | append_singleton history last ih =>
    rw [after_concat]
    exact ih.perform last

theorem batchSize_after (c : Catalog) (history : List Change) : (c.after history).batchSize = c.batchSize := by
  induction history using List.reverseRecOn with
  | nil => rfl
  | append_singleton history last ih => rw [after_concat, batchSize_perform, ih]

/-- The sources of a catalog are those that stand in its history. -/
theorem source?_after_eq_some_iff : ((empty size).after history).source? name = some source ↔
    ∃ change, Stands (empty size).batchSize history name change source := by
  induction history using List.reverseRecOn with
  | nil => simp [after, empty, source?, Stands]
  | append_singleton history last ih =>
    have hstep := source?_perform ((empty size).after history) last name
    rw [batchSize_after] at hstep
    rw [after_concat]
    simp only [stands_concat_iff]
    rcases hstep with ⟨s, hreg, hs⟩ | ⟨rfl, hnone⟩ | ⟨hne, hnot, hsame⟩
    · rw [hs, Option.some.injEq]
      constructor
      · rintro rfl
        exact ⟨last, .inl ⟨rfl, hreg⟩⟩
      · rintro ⟨change, ⟨-, hreg'⟩ | ⟨⟨-, hnot⟩, -⟩⟩
        · exact (hreg'.unique hreg).2
        · exact absurd hreg (hnot s)
    · rw [hnone]
      refine iff_of_false nofun ?_
      rintro ⟨change, ⟨-, hreg⟩ | ⟨⟨hne, -⟩, -⟩⟩
      · cases hreg
      · exact hne rfl
    · rw [hsame, ih]
      constructor
      · rintro ⟨change, hstands⟩
        exact ⟨change, .inr ⟨⟨hne, hnot⟩, hstands⟩⟩
      · rintro ⟨change, ⟨-, hreg⟩ | ⟨-, hstands⟩⟩
        · exact absurd hreg (hnot source)
        · exact ⟨change, hstands⟩

/-! ## Answers -/

/-- What a catalog answers after a history of changes that began with an empty catalog, which makes batches of the given
size. -/
structure Remembers (size : Nat) (history : List Change) (c : Catalog) : Prop where
  names_ascend : c.names.Pairwise (· < ·)
  listed_iff : ∀ name, name ∈ c.names ↔ ∃ change source, Stands size history name change source
  table_iff : ∀ name, (∃ f, c.table name = .ok f) ↔ name ∈ c.names
  table_of_stands : ∀ name change source, Stands size history name change source →
    c.table name = .ok (Frame.scan name source)
  table_of_not_listed : ∀ name, name ∉ c.names → c.table name = .error (.tableNotFound name)
  rows_of_stands : ∀ name schema rows source, Stands size history name (.registerTable name schema rows) source →
    source.schema = schema ∧ ∃ bs, source.scan [] = .ok bs ∧ c.execute (Frame.scan name source) = .ok bs ∧
      (bs.mapM Batch.readRows).map List.flatten = .ok rows
  /-- A removal answers the source of the name, and no other name is concerned. -/
  removed_of_stands : ∀ name change source, Stands size history name change source →
    (c.perform (.deregister name)).1 = .ok (some source)
  removed_of_not_listed : ∀ name, name ∉ c.names → (c.perform (.deregister name)).1 = .ok none
  names_removed : ∀ name, (c.perform (.deregister name)).2.names = c.names.filter (· ≠ name)
  table_removed : ∀ name other, other ≠ name → (c.perform (.deregister name)).2.table other = c.table other
  performed_iff : ∀ change, (∃ answer, (c.perform change).1 = .ok answer) ↔
    (∃ name, change = .deregister name) ∨ ∃ name source, change.Registers size name source
  failed : ∀ change e c', c.perform change = (.error e, c') → c' = c
  /-- A frame made of a table reads the source that stood there then, and no later change concerns it. -/
  frame_reading : ∀ name change source f g, Stands size history name change source → c.table name = .ok f →
    f.Extends g → g.plan.reading source = g.plan
  execute_after : ∀ (f : Frame) later, (c.after later).execute f = c.execute f

theorem table_of_source? (h : c.source? name = some source) : c.table name = .ok (Frame.scan name source) := by
  rw [table, h]

theorem table_of_source?_eq_none (h : c.source? name = none) : c.table name = .error (.tableNotFound name) := by
  rw [table, h]

theorem source?_eq_none_of_not_mem (h : name ∉ c.names) : c.source? name = none := by
  rw [Option.eq_none_iff_forall_ne_some]
  exact fun source hs => h (mem_names_iff.2 ⟨source, hs⟩)

theorem exists_table_iff : (∃ f, c.table name = .ok f) ↔ name ∈ c.names := by
  constructor
  · rintro ⟨f, hf⟩
    by_contra hnot
    rw [table_of_source?_eq_none (source?_eq_none_of_not_mem hnot)] at hf
    cases hf
  · intro hmem
    obtain ⟨source, hs⟩ := mem_names_iff.1 hmem
    exact ⟨_, table_of_source? hs⟩

theorem execute_scan_ofRows {schema : Schema} {rows : List Row} {t : Table} (h : Table.ofRows schema rows size = .ok t)
    (c : Catalog) (name : String) :
    t.source.schema = schema ∧ ∃ bs, t.source.scan [] = .ok bs ∧ c.execute (Frame.scan name t.source) = .ok bs ∧
      (bs.mapM Batch.readRows).map List.flatten = .ok rows := by
  have hloaded := Table.loadedFrom_of_ofRows h
  exact ⟨hloaded.schema_eq, t.batches, rfl, t.scanChecked_source [], hloaded.rows_eq⟩

/-- After every history a catalog answers by the last registration of each name: whether it is listed, which source is
scanned and which one is removed. Changes that fail have no effect, and no change has one on the frames made before. -/
theorem remembers_after (size : Nat) (history : List Change) :
    Remembers (max size 1) history ((empty size).after history) := by
  have hsource : ∀ {name source}, ((empty size).after history).source? name = some source ↔
      ∃ change, Stands (max size 1) history name change source := source?_after_eq_some_iff
  exact {
    names_ascend := Ascending.after (c := empty size) List.Pairwise.nil history
    listed_iff := by
      intro name
      rw [mem_names_iff, exists_comm]
      simp only [hsource]
    table_iff := fun name => exists_table_iff
    table_of_stands := fun name change source h => table_of_source? (hsource.2 ⟨change, h⟩)
    table_of_not_listed := fun name h => table_of_source?_eq_none (source?_eq_none_of_not_mem h)
    rows_of_stands := by
      rintro name schema rows source ⟨before, after, -, hreg, -⟩
      cases hreg with
      | table ht => exact execute_scan_ofRows ht _ name
    removed_of_stands := fun name change source h => congrArg Except.ok (hsource.2 ⟨change, h⟩)
    removed_of_not_listed := fun name h => congrArg Except.ok (source?_eq_none_of_not_mem h)
    names_removed := fun name => names_deregister
    table_removed := by
      intro name other hne
      show ((((empty size).after history).deregister name).2.table other) = _
      rw [table, table, source?_deregister, if_neg hne]
    performed_iff := by
      intro change
      rw [exists_perform_eq_ok_iff, batchSize_after]
      rfl
    failed := fun change e c' => eq_of_perform_eq_error
    frame_reading := by
      intro name change source f g h hf hg
      rw [table_of_source? (hsource.2 ⟨change, h⟩), Except.ok.injEq] at hf
      subst hf
      exact hg.reading rfl
    execute_after := fun f later => rfl }

/-- Deliveries are registered, an archive comes and goes, and a table in which a quantity is a text is refused under the
name of the deliveries. What was registered first is still there, and a frame made of it returns its rows even after
another source has taken the name. -/
theorem remembers_after_deliveries :
    let schema : Schema := ⟨[⟨"item", .text, false⟩, ⟨"quantity", .int .w64, false⟩]⟩
    let rows : List Row :=
      [[.text "nut", .ofInt .w64 1], [.text "bolt", .ofInt .w64 2], [.text "nut", .ofInt .w64 3]]
    let refused : Change := .registerTable "deliveries" schema [[.text "nut", .text "many"]]
    let archive : Source := .failing schema "closed"
    let history := [.registerTable "deliveries" schema rows, .register "archive" archive, refused, .deregister "archive"]
    let c := (empty 2).after history
    c.names = ["deliveries"] ∧ c.table "archive" = .error (.tableNotFound "archive") ∧
      c.perform refused = (.error (.typeMismatch (.int .w64) .text), c) ∧
      Stands 2 history "deliveries" (.registerTable "deliveries" schema rows) (Table.deliveries 2).source ∧
      c.table "deliveries" = .ok (Frame.scan "deliveries" (Table.deliveries 2).source) ∧
      ∃ bs, (c.after [.register "deliveries" archive]).execute (Frame.scan "deliveries" (Table.deliveries 2).source) =
          .ok bs ∧ (bs.mapM Batch.readRows).map List.flatten = .ok rows := by
  intro schema rows refused archive history c
  have h := remembers_after 2 history
  have hstands : Stands 2 history "deliveries" (.registerTable "deliveries" schema rows) (Table.deliveries 2).source := by
    have hrefused : Table.ofRows schema [[.text "nut", .text "many"]] 2 = .error (.typeMismatch (.int .w64) .text) := rfl
    subst schema rows refused archive history
    refine ⟨[], _, rfl, .table rfl, ?_⟩
    simp only [List.forall_mem_cons]
    refine ⟨⟨nofun, fun s hs => ?_⟩, ⟨nofun, fun s hs => ?_⟩, ⟨by simp, nofun⟩, nofun⟩
    · exact absurd (hs.unique (.source _)).1 (by decide)
    · cases hs with
      | table hs =>
        rw [hrefused] at hs
        cases hs
  have hnames : ((empty 2).after history).names = ["deliveries"] := by
    subst schema rows refused archive history
    rfl
  have hmissing : "archive" ∉ ((empty 2).after history).names := by
    rw [hnames]
    decide
  have hrefusal : ((empty 2).after history).perform refused =
      (.error (.typeMismatch (.int .w64) .text), (empty 2).after history) := by
    subst schema rows refused archive history
    rfl
  obtain ⟨-, bs, -, hbs, hrows⟩ := h.rows_of_stands _ _ _ _ hstands
  exact ⟨hnames, h.table_of_not_listed _ hmissing, hrefusal, hstands, h.table_of_stands _ _ _ hstands, bs,
    (h.execute_after _ _).trans hbs, hrows⟩

end Histories

end Catalog

end ColumnarQuery
