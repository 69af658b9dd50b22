import ColumnarQuery.Proofs.Plan.Resolution
import ColumnarQuery.Proofs.Source.Rows

/-!
# Batch boundaries

Over two tables of the same rows a plan succeeds on both or on neither, with the same rows
(`Logical.Plan.execute_of_sameRows`): its columns are found in both or in neither, which makes two plans that differ in the
batches of their sources only.
-/

namespace ColumnarQuery

/-- Two plans with the same schema, the same rows over the same stored rows, and the same needs. -/
structure Physical.Plan.Alike (q r : Physical.Plan) : Prop where
  schema : q.schema = r.schema
  onRows : ∀ stored, q.onRows stored = r.onRows stored
  batched : ∀ stored, q.Batched stored ↔ r.Batched stored
  fits : ∀ stored, q.Fits stored ↔ r.Fits stored

namespace Logical.Plan

theorem exists_alike {p : Plan} {source : Source} {q : Physical.Plan} (other : Source)
    (hs : source.schema = other.schema) (h : (p.reading source).resolve = .ok q) :
    ∃ r, (p.reading other).resolve = .ok r ∧ q.Alike r := by
  induction p generalizing q with
  | scan path _ projection =>
    cases h
    refine ⟨.scan other projection, rfl, ⟨?_, ?_, fun _ => Iff.rfl, fun _ => Iff.rfl⟩⟩
    · rw [Physical.Plan.schema, Physical.Plan.schema, hs]
    · intro stored
      rw [Physical.Plan.onRows, Physical.Plan.onRows, hs]
  | project input exprs ih =>
    obtain ⟨plan, schema, pexprs, hplan, hschema, hpexprs, rfl⟩ := resolve_project_eq_ok h
    obtain ⟨plan', hplan', halike⟩ := ih hplan
    rw [halike.schema] at hschema hpexprs
    refine ⟨.project plan' schema pexprs, ?_, ⟨rfl, ?_, halike.batched, ?_⟩⟩
    · rw [reading, resolve, hplan', ok_bind, hschema, ok_bind, hpexprs, ok_bind, pure_eq_ok]
    · intro stored
      rw [Physical.Plan.onRows, Physical.Plan.onRows, halike.onRows]
    · intro stored
      rw [Physical.Plan.Fits, Physical.Plan.Fits, halike.fits, halike.batched, halike.schema]
  | filter input predicate ih =>
    obtain ⟨plan, pe, hplan, hpe, rfl⟩ := resolve_filter_eq_ok h
    obtain ⟨plan', hplan', halike⟩ := ih hplan
    rw [halike.schema] at hpe
    refine ⟨.filter plan' pe, ?_, ⟨halike.schema, ?_, halike.batched, ?_⟩⟩
    · rw [reading, resolve, hplan', ok_bind, hpe, ok_bind, pure_eq_ok]
    · intro stored
      rw [Physical.Plan.onRows, Physical.Plan.onRows, halike.onRows]
    · intro stored
      rw [Physical.Plan.Fits, Physical.Plan.Fits, halike.fits, halike.batched, halike.schema]
  | aggregate input keys aggregates ih =>
    obtain ⟨plan, schema, pkeys, paggregates, hplan, hschema, hpkeys, hpaggregates, rfl⟩ := resolve_aggregate_eq_ok h
    obtain ⟨plan', hplan', halike⟩ := ih hplan
    rw [halike.schema] at hschema hpkeys hpaggregates
    refine ⟨.aggregate plan' schema pkeys paggregates, ?_, ⟨rfl, ?_, fun _ => Iff.rfl, ?_⟩⟩
    · rw [reading, resolve, hplan', ok_bind, hschema, ok_bind, hpkeys, ok_bind, hpaggregates, ok_bind, pure_eq_ok]
    · intro stored
      rw [Physical.Plan.onRows, Physical.Plan.onRows, halike.onRows]
    · intro stored
      rw [Physical.Plan.Fits, Physical.Plan.Fits, halike.fits, halike.batched, halike.schema]

/-- The plan succeeds over both tables or over neither, and returns the same rows. -/
def SameOutcome (p : Plan) (t u : Table) : Prop :=
  ((∃ bs, (p.reading t.source).execute = .ok bs) ↔ ∃ cs, (p.reading u.source).execute = .ok cs) ∧
    ∀ bs cs, (p.reading t.source).execute = .ok bs → (p.reading u.source).execute = .ok cs →
      Batch.allRows bs = Batch.allRows cs

/-- What a plan returns over a table is what it returns over another table of the same rows. -/
theorem execute_of_sameRows {p : Plan} {t u : Table} {bs : List Batch} (h : t.SameRows u)
    (ht : (p.reading t.source).execute = .ok bs) :
    ∃ cs, (p.reading u.source).execute = .ok cs ∧ Batch.allRows cs = Batch.allRows bs := by
  obtain ⟨q, hq, hbs⟩ := bind_eq_ok_iff.1 ht
  obtain ⟨r, hr, halike⟩ := exists_alike u.source h.schema hq
  obtain ⟨hfits, hrows⟩ :=
    (Physical.Plan.execute_iff (source_of_resolve_reading hq) (consistent_of_resolve hq)).1 ⟨bs, hbs, rfl⟩
  have hempty : (t.batches ≠ []) = (u.batches ≠ []) := propext (not_congr h.empty)
  rw [halike.fits, hempty] at hfits
  rw [halike.onRows, h.rows] at hrows
  obtain ⟨cs, hcs, hall⟩ :=
    (Physical.Plan.execute_iff (source_of_resolve_reading hr) (consistent_of_resolve hr)).2 ⟨hfits, hrows⟩
  exact ⟨cs, by rw [execute, hr, ok_bind, hcs], hall⟩

theorem sameOutcome_of_sameRows {p : Plan} {t u : Table} (h : t.SameRows u) : p.SameOutcome t u := by
  refine ⟨⟨?_, ?_⟩, ?_⟩
  · intro ht
    obtain ⟨bs, hbs⟩ := ht
    obtain ⟨cs, hcs, -⟩ := execute_of_sameRows h hbs
    exact ⟨cs, hcs⟩
  · intro hu
    obtain ⟨cs, hcs⟩ := hu
    obtain ⟨bs, hbs, -⟩ := execute_of_sameRows h.symm hcs
    exact ⟨bs, hbs⟩
  · intro bs cs hbs hcs
    obtain ⟨cs', hcs', hrows⟩ := execute_of_sameRows h hbs
    rw [hcs, Except.ok.injEq] at hcs'
    rw [hcs', hrows]

/-- Where the rows of a table are cut into batches is not observable: neither with stored batches of any sizes, if there
is one at all, nor with any two batch sizes of tables made from rows. -/
theorem batch_boundaries_unobservable (p : Plan) :
    (∀ t u : Table, t.SameRows u → p.SameOutcome t u) ∧
      ∀ (schema : Schema) (rows : List Row) (m n : Nat),
        ((∃ t, Table.ofRows schema rows m = .ok t) ↔ ∃ u, Table.ofRows schema rows n = .ok u) ∧
          ∀ t u, Table.ofRows schema rows m = .ok t → Table.ofRows schema rows n = .ok u → p.SameOutcome t u := by
  refine ⟨fun t u h => sameOutcome_of_sameRows h, fun schema rows m n => ⟨?_, fun t u ht hu => ?_⟩⟩
  · rw [Table.exists_ofRows_iff, Table.exists_ofRows_iff]
  · exact sameOutcome_of_sameRows (Table.sameRows_ofRows ht hu)

/-- The quantities of a table in batches of one row and in batches of two. -/
theorem batch_boundaries_unobservable_quantities :
    (∃ bs, (quantities.reading (Table.deliveries 1).source).execute = .ok bs) ∧
      Table.SameRows (.deliveries 1) (.deliveries 2) ∧ quantities.SameOutcome (.deliveries 1) (.deliveries 2) := by
  have hsame : Table.SameRows (.deliveries 1) (.deliveries 2) := ⟨rfl, rfl, by decide⟩
  exact ⟨⟨_, rfl⟩, hsame, (batch_boundaries_unobservable quantities).1 _ _ hsame⟩

end Logical.Plan

end ColumnarQuery
