import ColumnarQuery.Float.Decimal

/-!
# Values

Equality of values is structural, so numbers in floating point are equal if their bits are.
-/

namespace ColumnarQuery

inductive Value where
  | boolean (b : Bool)
  | int (w : IntWidth) (n : BitVec w.bits)
  | float (w : FloatWidth) (x : FloatBits w)
  | text (s : String)
deriving DecidableEq, Repr

namespace Value

def type : Value → DataType
  | boolean _ => .boolean
  | int w _ => .int w
  | float w _ => .float w
  | text _ => .text

/-- The integer of width `w` that is `n` modulo the width. -/
def ofInt (w : IntWidth) (n : Int) : Value :=
  int w (BitVec.ofInt w.bits n)

def boolean? : Value → Option Bool
  | boolean b => some b
  | _ => none

def int32? : Value → Option Int
  | int .w32 n => some n.toInt
  | _ => none

def int64? : Value → Option Int
  | int .w64 n => some n.toInt
  | _ => none

def double? : Value → Option (FloatBits .double)
  | float .double x => some x
  | _ => none

def text? : Value → Option String
  | text s => some s
  | _ => none

/-- A number of any type in double precision. -/
def toDouble? : Value → Option (FloatBits .double)
  | int _ n => some (FloatBits.ofInt .double n.toInt)
  | float _ x => some x.widen
  | _ => none

/-- The text of a value, a text as it is. -/
def render : Value → String
  | boolean b => if b then "true" else "false"
  | int _ n => toString n.toInt
  | float _ x => x.render
  | text s => s

/-- The text of a value in an expression, a text in single quotes. -/
def renderLiteral : Value → String
  | text s => "'" ++ s ++ "'"
  | v => v.render

end Value

end ColumnarQuery
