import ColumnarQuery.Frame
import ColumnarQuery.Source.Table

/-!
# Catalogs

A `Catalog` holds sources by name, and the batch size of the tables that it makes from rows.
-/

namespace ColumnarQuery

structure Catalog where
  batchSize : Nat
  /-- The sources, ascending by name. -/
  tables : List (String × Source)

namespace Catalog

def defaultBatchSize : Nat :=
  1024

/-- The catalog without sources that makes batches of the given size, or of one row if that is zero. -/
def empty (batchSize : Nat) : Catalog where
  batchSize := max batchSize 1
  tables := []

def names (c : Catalog) : List String :=
  c.tables.map Prod.fst

/-- The entries with a source under a name, in place of one that was there. -/
def insertEntry (name : String) (source : Source) : List (String × Source) → List (String × Source)
  | [] => [(name, source)]
  | entry :: entries =>
    match compareChars name.toList entry.1.toList with
    | .lt => (name, source) :: entry :: entries
    | .eq => (name, source) :: entries
    | .gt => entry :: insertEntry name source entries

def source? (c : Catalog) (name : String) : Option Source :=
  c.tables.lookup name

/-- The catalog with a source under a name, in place of one that was there. -/
def register (c : Catalog) (name : String) (source : Source) : Catalog :=
  { c with tables := insertEntry name source c.tables }

def registerTable (c : Catalog) (name : String) (schema : Schema) (rows : List (List Value)) :
    Except Error Catalog := do
  return c.register name (← Table.ofRows schema rows c.batchSize).source

/-- The source of a name, and the catalog without it. -/
def deregister (c : Catalog) (name : String) : Option Source × Catalog :=
  (c.source? name, { c with tables := c.tables.filter (·.1 ≠ name) })

def table (c : Catalog) (name : String) : Except Error Frame :=
  match c.source? name with
  | some source => .ok (Frame.scan name source)
  | none => .error (.tableNotFound name)

/-- The plan of a frame with its columns found. A frame holds the sources that it reads, so no name is looked up. -/
def plan (_ : Catalog) (f : Frame) : Except Error Physical.Plan :=
  f.plan.resolve

def execute (c : Catalog) (f : Frame) : Except Error (List Batch) := do
  (← c.plan f).execute

end Catalog

end ColumnarQuery
