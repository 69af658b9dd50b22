import ColumnarQuery.Text.Quoted
import ColumnarQuery.Value.Order

/-!
# Columns

A `Column` stores values of one type, one by one or as one value repeated. `Column.toList` are its values in order, the
view that all else is stated on; a repeated value is never written out for `Column.valueAt`.
-/

namespace ColumnarQuery

inductive Column where
  | array (type : DataType) (values : Array Value) (typed : ∀ v ∈ values, v.type = type)
  | constant (value : Value) (length : Nat)
deriving DecidableEq, Repr

namespace Column

def type : Column → DataType
  | array t _ _ => t
  | constant v _ => v.type

def length : Column → Nat
  | array _ vs _ => vs.size
  | constant _ n => n

def toList : Column → List Value
  | array _ vs _ => vs.toList
  | constant v n => List.replicate n v

/-- The value at an index, none past the end. -/
def get? : Column → Nat → Option Value
  | array _ vs _, i => vs[i]?
  | constant v n, i => if i < n then some v else none

@[simp] theorem length_toList (c : Column) : c.toList.length = c.length := by
  cases c <;> simp [toList, length]

theorem type_of_mem_toList {c : Column} {v : Value} (h : v ∈ c.toList) : v.type = c.type := by
  cases c with
  | array t vs typed => exact typed v (Array.mem_toList_iff.1 h)
  | constant w n => rw [List.eq_of_mem_replicate h, type]

theorem get?_eq_getElem?_toList (c : Column) (i : Nat) : c.get? i = c.toList[i]? := by
  cases c <;> simp [get?, toList, List.getElem?_replicate]

def valueAt (c : Column) (i : Nat) : Except Error Value :=
  match c.get? i with
  | some v => .ok v
  | none => .error (.indexOutOfBounds i c.length)

/-! ## Making columns -/

def empty (t : DataType) : Column :=
  array t #[] (by simp)

/-- The column of a type with the given values; the first that has another type is refused. -/
def ofValues (t : DataType) (vs : List Value) : Except Error Column :=
  match h : vs.find? (fun v => v.type ≠ t) with
  | some v => .error (.typeMismatch t v.type)
  | none => .ok (array t vs.toArray (by simpa using h))

/-! ## Equality -/

/-- Two columns stored one by one are equal if their types are and their values compare as equal, so that a NaN
equals nothing and the zeros equal each other. Two repeated values are equal if the values and their numbers are.
Columns in different storage are not compared. -/
def equal : Column → Column → Bool
  | array t vs _, array u ws _ =>
    t = u && vs.size = ws.size &&
      (vs.toList.zip ws.toList).all fun p => (p.1.compare p.2).toOption = some (some .eq)
  | constant v m, constant w n => v = w && m = n
  | _, _ => false

/-! ## Text -/

def renderValue : Value → String
  | .text s => Text.quote s
  | v => v.render

/-- The values in brackets, with a space between two. -/
def render (c : Column) : String :=
  "[" ++ " ".intercalate (c.toList.map renderValue) ++ "]"

end Column

end ColumnarQuery
