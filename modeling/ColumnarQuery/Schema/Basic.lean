import ColumnarQuery.DataType

/-!
# Schemas

* `Field` : the name and type of a column, and whether it may hold nulls; written by `Field.render`;
* `Schema` : the fields of a table in order, whose names may repeat; written by `Schema.render`.
-/

namespace ColumnarQuery

structure Field where
  name : String
  type : DataType
  nullable : Bool
deriving DecidableEq, Repr

namespace Field

def withName (f : Field) (name : String) : Field :=
  { f with name }

def render (f : Field) : String :=
  f.name ++ ": " ++ f.type.name

end Field

structure Schema where
  fields : List Field
deriving DecidableEq, Repr

namespace Schema

def empty : Schema :=
  ⟨[]⟩

def size (s : Schema) : Nat :=
  s.fields.length

def names (s : Schema) : List String :=
  s.fields.map Field.name

def types (s : Schema) : List DataType :=
  s.fields.map Field.type

def render (s : Schema) : String :=
  "[" ++ ", ".intercalate (s.fields.map Field.render) ++ "]"

end Schema

end ColumnarQuery
