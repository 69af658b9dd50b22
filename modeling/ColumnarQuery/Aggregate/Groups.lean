import ColumnarQuery.Aggregate.Accumulator
import ColumnarQuery.Batch

/-!
# Groups of rows

A `Group` is a key and the state of each aggregate on the rows of that key. `Groups.addRows` takes the rows of key and
input columns, and `Groups.toBatch` makes one row per group.
-/

namespace ColumnarQuery

/-- The rows of one key, as the states of the aggregates on them. -/
structure Group where
  key : List Value
  accumulators : List Accumulator
deriving DecidableEq, Repr

def feedAll (accumulators : List Accumulator) (values : List Value) : Except Error (List Accumulator) :=
  (accumulators.zip values).mapM fun (a, v) => a.feed v

/-- The value in a column of the output: the key, and behind it the answers. -/
def Group.output (g : Group) (i : Nat) : Except Error Value :=
  match (g.key.map Except.ok ++ g.accumulators.map Accumulator.finish)[i]? with
  | some v => v
  | none => .error (.indexOutOfBounds i (g.key.length + g.accumulators.length))

/-- The groups of the rows so far, in the order in which their keys first occurred. -/
abbrev Groups := List Group

namespace Groups

/-- The groups after a row with the given key and aggregate inputs; `start` are the states before any row. -/
def add (start : List Accumulator) (key inputs : List Value) : Groups → Except Error Groups
  | [] => do
    return [⟨key, ← feedAll start inputs⟩]
  | g :: gs =>
    if g.key = key then do
      return ⟨key, ← feedAll g.accumulators inputs⟩ :: gs
    else do
      return g :: (← add start key inputs gs)

/-- The groups after the rows `i`, `i + 1`, …, `n` of them, of the given columns. -/
def addRows (start : List Accumulator) (keys inputs : List Column) :
    (n i : Nat) → Groups → Except Error Groups
  | 0, _, gs => .ok gs
  | n + 1, i, gs => do
    let key ← keys.mapM (·.valueAt i)
    let values ← inputs.mapM (·.valueAt i)
    addRows start keys inputs n (i + 1) (← gs.add start key values)

/-- The batch with one row per group, whose keys and states number `width` together. -/
def toBatch (schema : Schema) (width : Nat) (gs : Groups) : Except Error Batch :=
  if schema.size = width then do
    let columns ← schema.fields.zipIdx.mapM fun (f, i) => do
      Column.ofValues f.type (← gs.mapM (·.output i))
    Batch.ofColumns schema columns gs.length
  else .error (.invalidSchema (.aggregateColumns schema.size width))

end Groups

end ColumnarQuery
