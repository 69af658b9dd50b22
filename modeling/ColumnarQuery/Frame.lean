import ColumnarQuery.Logical.Resolution

/-!
# Frames

`Frame` builds a query step by step from a scan. A step returns a new frame and leaves the one before as it was.
-/

namespace ColumnarQuery

structure Frame where
  plan : Logical.Plan

namespace Frame

/-- Every column of a source, read under the name `path`. -/
def scan (path : String) (source : Source) : Frame :=
  ⟨.scan path source []⟩

def project (f : Frame) (exprs : List Logical.Expr) : Frame :=
  ⟨.project f.plan exprs⟩

def filter (f : Frame) (predicate : Logical.Expr) : Frame :=
  ⟨.filter f.plan predicate⟩

def aggregate (f : Frame) (keys : List Logical.Expr) (aggregates : List Logical.Aggregate) : Frame :=
  ⟨.aggregate f.plan keys aggregates⟩

def schema (f : Frame) : Except Error Schema :=
  f.plan.schema

def field (f : Frame) (expr : Logical.Expr) : Except Error Field := do
  expr.fieldIn (← f.schema)

def execute (f : Frame) : Except Error (List Batch) :=
  f.plan.execute

end Frame

end ColumnarQuery
