/-!
# Outlines

The text of a tree: each node on a line of its own, behind one tab per level.
-/

namespace ColumnarQuery.Text

def outlineLine (level : Nat) (text : String) : String :=
  String.ofList (List.replicate level '\t') ++ text ++ "\n"

def commaList (items : List String) : String :=
  ", ".intercalate items

/-- The names of a scan, where none stand for all columns. -/
def columnNames (names : List String) : String :=
  if names.isEmpty then "None" else "[" ++ commaList names ++ "]"

end ColumnarQuery.Text
