import ColumnarQuery.Error

/-!
# Looking up and selecting fields

A name stands for the first field that has it. An empty list of names selects all fields; `Schema.select` leaves out unknown
names, and `Schema.trySelect` refuses them.
-/

namespace ColumnarQuery

/-- The first element of a list that occurs before it, in the list or among `seen`. -/
def firstRepeated? (seen : List String) : List String → Option String
  | [] => none
  | n :: ns => if n ∈ seen then some n else firstRepeated? (n :: seen) ns

namespace Schema

/-- The schema with the given fields, whose names must differ. -/
def checked (fields : List Field) : Except Error Schema :=
  match firstRepeated? [] (fields.map Field.name) with
  | some name => .error (.invalidSchema (.duplicateField name))
  | none => .ok ⟨fields⟩

def indexOf (s : Schema) (name : String) : Except Error Nat :=
  match s.fields.findIdx? (·.name = name) with
  | some i => .ok i
  | none => .error (.columnNotFound name)

def field? (s : Schema) (name : String) : Option Field :=
  s.fields.find? (·.name = name)

def fieldNamed (s : Schema) (name : String) : Except Error Field :=
  match s.field? name with
  | some f => .ok f
  | none => .error (.columnNotFound name)

/-- The fields of the given names, in their order and as often as they are given; unknown names are left out. -/
def select (s : Schema) (names : List String) : Schema :=
  if names.isEmpty then s else ⟨names.filterMap s.field?⟩

/-- The fields of the given names, all of which must be known. -/
def trySelect (s : Schema) (names : List String) : Except Error Schema :=
  if names.isEmpty then .ok s else Schema.mk <$> names.mapM s.fieldNamed

end Schema

end ColumnarQuery
