/-!
# Element types of a column

* `IntWidth`, `FloatWidth` : the widths of the signed integers and of the binary floating point numbers;
* `DataType` : the kind of value that a column holds; `DataType.name` is its name in schema text.
-/

namespace ColumnarQuery

inductive IntWidth where
  | w8
  | w16
  | w32
  | w64
deriving DecidableEq, Repr

def IntWidth.bits : IntWidth → Nat
  | .w8 => 8
  | .w16 => 16
  | .w32 => 32
  | .w64 => 64

inductive FloatWidth where
  | single
  | double
deriving DecidableEq, Repr

/-- The number of bits of a floating point number: sign, exponent and fraction. -/
def FloatWidth.bits : FloatWidth → Nat
  | .single => 32
  | .double => 64

inductive DataType where
  | boolean
  | int (w : IntWidth)
  | float (w : FloatWidth)
  | text
deriving DecidableEq, Repr

namespace DataType

def name : DataType → String
  | boolean => "Boolean"
  | int .w8 => "Int8"
  | int .w16 => "Int16"
  | int .w32 => "Int32"
  | int .w64 => "Int64"
  | float .single => "Float32"
  | float .double => "Float64"
  | text => "Utf8"

def isInteger : DataType → Bool
  | int _ => true
  | _ => false

def isFloating : DataType → Bool
  | float _ => true
  | _ => false

/-- Arithmetic is defined on the type. -/
def isNumeric (t : DataType) : Bool :=
  t.isInteger || t.isFloating

end DataType

end ColumnarQuery
