import ColumnarQuery.Proofs.Plan.Acceptance
import ColumnarQuery.Proofs.Schema.Selection
import ColumnarQuery.Proofs.Text.Rendering

/-!
# Outlines of plans

The text of a plan is the outline of its steps, the last one first. A step is written on one line if the names and literals
in it are, so that the steps and their levels can be read off the text (`Logical.Plan.format_encodes`).
-/

namespace ColumnarQuery

open Text

theorem Schema.oneLine_of_select {s : Schema} {projection : List String} (h : ∀ name ∈ s.names, OneLine name) :
    ∀ name ∈ (s.select projection).names, OneLine name := by
  by_cases hp : projection = []
  · rwa [hp, select_nil]
  · rw [names_select hp]
    exact fun name hname => h name (of_decide_eq_true (List.mem_filter.1 hname).2)

theorem oneLine_commaList_map {α : Type} {xs : List α} {render : α → String} {texts : α → List String}
    (hrender : ∀ x, (∀ t ∈ texts x, OneLine t) → OneLine (render x)) (h : ∀ t ∈ xs.flatMap texts, OneLine t) :
    OneLine (commaList (xs.map render)) := by
  refine oneLine_commaList fun s hs => ?_
  obtain ⟨x, hx, rfl⟩ := List.mem_map.1 hs
  exact hrender x fun t ht => h t (List.mem_flatMap.2 ⟨x, hx, ht⟩)

/-! ## By positions -/

namespace Physical

def Aggregate.texts (a : Aggregate) : List String :=
  a.input.texts

theorem Aggregate.oneLine_render (a : Aggregate) (h : ∀ t ∈ a.texts, OneLine t) : OneLine a.render := by
  simp only [render, toString, oneLine_append]
  exact ⟨⟨⟨a.function.oneLine_name, by simp [OneLine]⟩, Expr.oneLine_render h⟩, by simp [OneLine]⟩

namespace Plan

/-- The steps of a plan, each with those before it, the last one first. -/
def steps : Plan → List Plan
  | p@(scan _ _) => [p]
  | p@(project input _ _) | p@(filter input _) | p@(aggregate input _ _ _) => p :: input.steps

def texts : Plan → List String
  | scan source projection => source.schema.names ++ projection
  | project input _ exprs => input.texts ++ exprs.flatMap Expr.texts
  | filter input predicate => input.texts ++ predicate.texts
  | aggregate input _ keys aggregates =>
    input.texts ++ (keys.flatMap Expr.texts ++ aggregates.flatMap Aggregate.texts)

theorem format_eq_outline (q : Plan) (level : Nat) : q.format level = outline level (q.steps.map render) := by
  induction q generalizing level with
  | scan source projection => simp [format, steps, outline_cons, outline_nil]
  | project input schema exprs ih => rw [format, steps, List.map_cons, outline_cons, ih]
  | filter input predicate ih => rw [format, steps, List.map_cons, outline_cons, ih]
  | aggregate input schema keys aggregates ih => rw [format, steps, List.map_cons, outline_cons, ih]

section Render
variable (input : Plan) (schema : Schema)

theorem render_scan (source : Source) (projection : List String) : (scan source projection).render =
    "ScanExec: schema=" ++ (source.schema.select projection).render ++ ", projection=" ++ columnNames projection := rfl

theorem render_project (exprs : List Expr) :
    (project input schema exprs).render = "ProjectionExec: " ++ commaList (exprs.map Expr.render) := rfl

theorem render_filter (predicate : Expr) : (filter input predicate).render = "SelectionExec: " ++ predicate.render := rfl

theorem render_aggregate (keys : List Expr) (aggregates : List Aggregate) :
    (aggregate input schema keys aggregates).render =
      "HashAggregateExec: groupExpr=[" ++ commaList (keys.map Expr.render) ++ "], aggrExpr=[" ++
        commaList (aggregates.map Aggregate.render) ++ "]" := rfl

end Render

theorem head?_render (q : Plan) : q.render.toList.head? ≠ some '\t' := by
  cases q <;> simp [render_scan, render_project, render_filter, render_aggregate]

theorem oneLine_render {q : Plan} (h : ∀ t ∈ q.texts, OneLine t) : OneLine q.render := by
  cases q with
  | scan source projection =>
    obtain ⟨hnames, hprojection⟩ := List.forall_mem_append.1 h
    simp only [render_scan, oneLine_append]
    exact ⟨⟨⟨by simp [OneLine], Schema.oneLine_render (Schema.oneLine_of_select hnames)⟩, by simp [OneLine]⟩,
      oneLine_columnNames hprojection⟩
  | project input schema exprs =>
    obtain ⟨-, hexprs⟩ := List.forall_mem_append.1 h
    simp only [render_project, oneLine_append]
    exact ⟨by simp [OneLine], oneLine_commaList_map (fun e => Expr.oneLine_render) hexprs⟩
  | filter input predicate =>
    obtain ⟨-, hpredicate⟩ := List.forall_mem_append.1 h
    simp only [render_filter, oneLine_append]
    exact ⟨by simp [OneLine], Expr.oneLine_render hpredicate⟩
  | aggregate input schema keys aggregates =>
    obtain ⟨-, h⟩ := List.forall_mem_append.1 h
    obtain ⟨hkeys, haggregates⟩ := List.forall_mem_append.1 h
    simp only [render_aggregate, oneLine_append]
    exact ⟨⟨⟨⟨by simp [OneLine], oneLine_commaList_map (fun e => Expr.oneLine_render) hkeys⟩, by simp [OneLine]⟩,
      oneLine_commaList_map Aggregate.oneLine_render haggregates⟩, by simp [OneLine]⟩

theorem oneLine_of_mem_steps {q : Plan} (h : ∀ t ∈ q.texts, OneLine t) : ∀ step ∈ q.steps, OneLine step.render := by
  induction q with
  | scan source projection => exact List.forall_mem_singleton.2 (oneLine_render h)
  | project input schema exprs ih | filter input predicate ih | aggregate input schema keys aggregates ih =>
    exact List.forall_mem_cons.2 ⟨oneLine_render h, ih (List.forall_mem_append.1 h).1⟩

theorem outlinedAs_format (q : Plan) : OutlinedAs q.texts (q.steps.map render) (format · q) :=
  outlinedAs q.format_eq_outline (fun h => List.forall_mem_map.2 (oneLine_of_mem_steps h))
    (List.forall_mem_map.2 fun step _ => step.head?_render)

end Plan

end Physical

/-! ## By names -/

namespace Logical

def Aggregate.texts (a : Aggregate) : List String :=
  a.input.texts

theorem Aggregate.oneLine_render (a : Aggregate) (h : ∀ t ∈ a.texts, OneLine t) : OneLine a.render :=
  Expr.oneLine_render (e := a.toExpr) h

namespace Plan

def steps : Plan → List Plan
  | p@(scan _ _ _) => [p]
  | p@(project input _) | p@(filter input _) | p@(aggregate input _ _) => p :: input.steps

/-- The path, the names of columns, the new names and the literal texts of a plan. -/
def texts : Plan → List String
  | scan path _ projection => path :: projection
  | project input exprs => input.texts ++ exprs.flatMap Expr.texts
  | filter input predicate => input.texts ++ predicate.texts
  | aggregate input keys aggregates => input.texts ++ (keys.flatMap Expr.texts ++ aggregates.flatMap Aggregate.texts)

def source : Plan → Source
  | scan _ source _ => source
  | project input _ | filter input _ | aggregate input _ _ => input.source

theorem format_eq_outline (p : Plan) (level : Nat) : p.format level = outline level (p.steps.map render) := by
  induction p generalizing level with
  | scan path source projection => simp [format, steps, outline_cons, outline_nil]
  | project input exprs ih => rw [format, steps, List.map_cons, outline_cons, ih]
  | filter input predicate ih => rw [format, steps, List.map_cons, outline_cons, ih]
  | aggregate input keys aggregates ih => rw [format, steps, List.map_cons, outline_cons, ih]

section Render
variable (input : Plan)

theorem render_scan (path : String) (source : Source) (projection : List String) :
    (scan path source projection).render = "Scan: " ++ path ++ "; projection=" ++ columnNames projection := rfl

theorem render_project (exprs : List Expr) :
    (project input exprs).render = "Projection: " ++ commaList (exprs.map Expr.render) := rfl

theorem render_filter (predicate : Expr) : (filter input predicate).render = "Filter: " ++ predicate.render := rfl

theorem render_aggregate (keys : List Expr) (aggregates : List Aggregate) :
    (aggregate input keys aggregates).render =
      "Aggregate: groupExpr=[" ++ commaList (keys.map Expr.render) ++ "], aggregateExpr=[" ++
        commaList (aggregates.map Aggregate.render) ++ "]" := rfl

end Render

theorem head?_render (p : Plan) : p.render.toList.head? ≠ some '\t' := by
  cases p <;> simp [render_scan, render_project, render_filter, render_aggregate]

theorem oneLine_render {p : Plan} (h : ∀ t ∈ p.texts, OneLine t) : OneLine p.render := by
  cases p with
  | scan path source projection =>
    obtain ⟨hpath, hprojection⟩ := List.forall_mem_cons.1 h
    simp only [render_scan, oneLine_append]
    exact ⟨⟨⟨by simp [OneLine], hpath⟩, by simp [OneLine]⟩, oneLine_columnNames hprojection⟩
  | project input exprs =>
    obtain ⟨-, hexprs⟩ := List.forall_mem_append.1 h
    simp only [render_project, oneLine_append]
    exact ⟨by simp [OneLine], oneLine_commaList_map (fun e => Expr.oneLine_render) hexprs⟩
  | filter input predicate =>
    obtain ⟨-, hpredicate⟩ := List.forall_mem_append.1 h
    simp only [render_filter, oneLine_append]
    exact ⟨by simp [OneLine], Expr.oneLine_render hpredicate⟩
  | aggregate input keys aggregates =>
    obtain ⟨-, h⟩ := List.forall_mem_append.1 h
    obtain ⟨hkeys, haggregates⟩ := List.forall_mem_append.1 h
    simp only [render_aggregate, oneLine_append]
    exact ⟨⟨⟨⟨by simp [OneLine], oneLine_commaList_map (fun e => Expr.oneLine_render) hkeys⟩, by simp [OneLine]⟩,
      oneLine_commaList_map Aggregate.oneLine_render haggregates⟩, by simp [OneLine]⟩

theorem oneLine_of_mem_steps {p : Plan} (h : ∀ t ∈ p.texts, OneLine t) : ∀ step ∈ p.steps, OneLine step.render := by
  induction p with
  | scan path source projection => exact List.forall_mem_singleton.2 (oneLine_render h)
  | project input exprs ih | filter input predicate ih | aggregate input keys aggregates ih =>
    exact List.forall_mem_cons.2 ⟨oneLine_render h, ih (List.forall_mem_append.1 h).1⟩

theorem outlinedAs_format (p : Plan) : OutlinedAs p.texts (p.steps.map render) (format · p) :=
  outlinedAs p.format_eq_outline (fun h => List.forall_mem_map.2 (oneLine_of_mem_steps h))
    (List.forall_mem_map.2 fun step _ => step.head?_render)

end Plan

/-! ## Columns found -/

theorem Expr.LocatedAs.texts {s : Schema} {e : Expr} {pe : Physical.Expr} (h : e.LocatedAs s pe) :
    ∀ t ∈ pe.texts, t ∈ e.texts := by
  induction h with
  | column => nofun
  | literal => exact fun t ht => ht
  | binary _ _ ihl ihr =>
    intro t ht
    rcases List.mem_append.1 ht with ht | ht
    · exact List.mem_append_left _ (ihl t ht)
    · exact List.mem_append_right _ (ihr t ht)
  | renamed _ ih => exact fun t ht => List.mem_append_left _ (ih t ht)

theorem mem_flatMap_of_forall₂ {α β : Type} {R : α → β → Prop} {f : α → List String} {g : β → List String} {xs : List α}
    {ys : List β} (h : List.Forall₂ R xs ys) (hR : ∀ x y, R x y → ∀ t ∈ g y, t ∈ f x) :
    ∀ t ∈ ys.flatMap g, t ∈ xs.flatMap f := by
  intro t ht
  obtain ⟨y, hy, ht⟩ := List.mem_flatMap.1 ht
  obtain ⟨x, hx, hxy⟩ := exists_mem_of_forall₂ h.flip hy
  exact List.mem_flatMap.2 ⟨x, hx, hR x y hxy t ht⟩

namespace Plan

/-- Of a plan with its columns found no texts are written but those of the plan and the names of the fields of its source. -/
theorem LocatedAs.texts {p : Plan} {q : Physical.Plan} (h : p.LocatedAs q) :
    ∀ t ∈ q.texts, t ∈ p.texts ∨ t ∈ p.source.schema.names := by
  induction h with
  | scan =>
    intro t ht
    rcases List.mem_append.1 ht with ht | ht
    · exact .inr ht
    · exact .inl (List.mem_cons_of_mem _ ht)
  | project _ _ hexprs ih =>
    intro t ht
    rcases List.mem_append.1 ht with ht | ht
    · exact (ih t ht).imp_left (List.mem_append_left _)
    · exact .inl (List.mem_append_right _ (mem_flatMap_of_forall₂ hexprs (fun _ _ h => h.texts) t ht))
  | filter _ hpredicate ih =>
    intro t ht
    rcases List.mem_append.1 ht with ht | ht
    · exact (ih t ht).imp_left (List.mem_append_left _)
    · exact .inl (List.mem_append_right _ (hpredicate.texts t ht))
  | aggregate _ _ hkeys haggregates ih =>
    intro t ht
    rcases List.mem_append.1 ht with ht | ht
    · exact (ih t ht).imp_left (List.mem_append_left _)
    · refine .inl (List.mem_append_right _ ?_)
      rcases List.mem_append.1 ht with ht | ht
      · exact List.mem_append_left _ (mem_flatMap_of_forall₂ hkeys (fun _ _ h => h.texts) t ht)
      · exact List.mem_append_right _ (mem_flatMap_of_forall₂ haggregates (fun _ _ h => h.2.texts) t ht)

theorem LocatedAs.length_steps {p : Plan} {q : Physical.Plan} (h : p.LocatedAs q) : q.steps.length = p.steps.length := by
  induction h with
  | scan => rfl
  | project _ _ _ ih => exact congrArg (· + 1) ih
  | filter _ _ ih => exact congrArg (· + 1) ih
  | aggregate _ _ _ _ ih => exact congrArg (· + 1) ih

/-- The text of a plan is the outline of its steps, before and after its columns are found. If neither the path nor a name
nor a literal has a newline, there is a line for each step, behind a tab for each level; and if no field of the source has
one in its name, there are as many lines with as many tabs once the columns are found. -/
theorem format_encodes (p : Plan) :
    OutlinedAs p.texts (p.steps.map render) (format · p) ∧
    (∀ q : Physical.Plan, OutlinedAs q.texts (q.steps.map Physical.Plan.render) (Physical.Plan.format · q)) ∧
    ∀ q level, p.resolve = .ok q → (∀ t ∈ p.texts, OneLine t) → (∀ name ∈ p.source.schema.names, OneLine name) →
      (lines (q.format level)).length = (lines (p.format level)).length ∧
        (lines (q.format level)).map indentation = (lines (p.format level)).map indentation := by
  refine ⟨p.outlinedAs_format, Physical.Plan.outlinedAs_format, fun q level h htexts hnames => ?_⟩
  have hlocated := resolve_eq_ok_iff.1 h
  have hqtexts : ∀ t ∈ q.texts, OneLine t := fun t ht => (hlocated.texts t ht).elim (htexts t) (hnames t)
  have hp := p.outlinedAs_format.encodes htexts level
  have hq := q.outlinedAs_format.encodes hqtexts level
  have hlength : (q.steps.map Physical.Plan.render).length = (p.steps.map render).length := by
    rw [List.length_map, List.length_map, hlocated.length_steps]
  exact ⟨by rw [hq.length_lines, hp.length_lines, hlength], by rw [hq.indentations, hp.indentations, hlength]⟩

/-- Three steps, one of which compares with a text that starts with a tab. -/
theorem format_encodes_deliveries :
    let scanned : Plan := .scan "deliveries" (Table.deliveries 2).source ["item"]
    let p : Plan := .project
      (.filter scanned (.binary (.comparison .ne) (.column "item") (.literal (.text "\tnut")))) [.renamed (.column "item") "what"]
    let items := ["Projection: #item as what", "Filter: #item != '\tnut'", "Scan: deliveries; projection=[item]"]
    ∃ q, p.resolve = .ok q ∧ (∀ t ∈ p.texts, OneLine t) ∧ (∀ name ∈ p.source.schema.names, OneLine name) ∧
      Encodes 1 items (p.format 1) ∧ p.format (1 + 2) = indent 2 (p.format 1) ∧
      (lines (q.format 1)).length = 3 ∧ (lines (q.format 1)).map indentation = [1, 2, 3] := by
  intro scanned p items
  obtain ⟨houtlined, -, hresolved⟩ := format_encodes p
  have htexts : ∀ t ∈ p.texts, OneLine t := by
    subst scanned p
    simp [texts, Expr.texts, Value.text?, OneLine]
  have hnames : ∀ name ∈ p.source.schema.names, OneLine name := by
    subst scanned p
    decide
  have hp := houtlined.encodes htexts 1
  obtain ⟨hlength, hlevels⟩ := hresolved _ 1 rfl htexts hnames
  rw [hp.length_lines] at hlength
  rw [hp.indentations] at hlevels
  have hitems : p.steps.map render = items := rfl
  rw [hitems] at hp
  exact ⟨_, rfl, htexts, hnames, hp, houtlined.format_add htexts 1 2, hlength, hlevels⟩

end Plan

end Logical

end ColumnarQuery
