import ColumnarQuery.DataType

/-!
# Operators and aggregate functions

A `BinaryOp` is a comparison, a connective or an arithmetic operator; `accepts` and `resultType` are the types that it takes
and gives.
-/

namespace ColumnarQuery

inductive Comparison where
  | eq
  | ne
  | gt
  | ge
  | lt
  | le
deriving DecidableEq, Repr

/-- Whether a comparison holds of two values in the given order; of unordered values only `ne` does. -/
def Comparison.holds : Comparison → Option Ordering → Bool
  | .eq, o => o = some .eq
  | .ne, o => o ≠ some .eq
  | .gt, o => o = some .gt
  | .ge, o => o = some .gt || o = some .eq
  | .lt, o => o = some .lt
  | .le, o => o = some .lt || o = some .eq

inductive Connective where
  | and
  | or
deriving DecidableEq, Repr

def Connective.apply : Connective → Bool → Bool → Bool
  | .and, a, b => a && b
  | .or, a, b => a || b

inductive Arithmetic where
  | add
  | sub
  | mul
  | div
  | rem
deriving DecidableEq, Repr

/-- The operator divides, so that a zero on its right may have no answer. -/
def Arithmetic.divides : Arithmetic → Bool
  | .div | .rem => true
  | _ => false

inductive BinaryOp where
  | comparison (op : Comparison)
  | connective (op : Connective)
  | arithmetic (op : Arithmetic)
deriving DecidableEq, Repr

namespace BinaryOp

def symbol : BinaryOp → String
  | comparison .eq => "="
  | comparison .ne => "!="
  | comparison .gt => ">"
  | comparison .ge => ">="
  | comparison .lt => "<"
  | comparison .le => "<="
  | connective .and => "AND"
  | connective .or => "OR"
  | arithmetic .add => "+"
  | arithmetic .sub => "-"
  | arithmetic .mul => "*"
  | arithmetic .div => "/"
  | arithmetic .rem => "%"

/-- The name of a column that the operator computes. -/
def name : BinaryOp → String
  | comparison .eq => "eq"
  | comparison .ne => "neq"
  | comparison .gt => "gt"
  | comparison .ge => "gteq"
  | comparison .lt => "lt"
  | comparison .le => "lteq"
  | connective .and => "and"
  | connective .or => "or"
  | arithmetic .add => "add"
  | arithmetic .sub => "subtract"
  | arithmetic .mul => "multiply"
  | arithmetic .div => "divide"
  | arithmetic .rem => "modulus"

def isArithmetic : BinaryOp → Bool
  | arithmetic _ => true
  | _ => false

def isBoolean (op : BinaryOp) : Bool :=
  !op.isArithmetic

/-- The operator has a meaning on two values of a type. -/
def accepts : BinaryOp → DataType → Bool
  | comparison _, _ => true
  | connective _, t => t = .boolean
  | arithmetic _, t => t.isNumeric

def resultType (op : BinaryOp) (operand : DataType) : DataType :=
  if op.isArithmetic then operand else .boolean

end BinaryOp

inductive AggregateFunction where
  | sum
  | min
  | max
  | avg
  | count
deriving DecidableEq, Repr

namespace AggregateFunction

def name : AggregateFunction → String
  | sum => "SUM"
  | min => "MIN"
  | max => "MAX"
  | avg => "AVG"
  | count => "COUNT"

def resultType : AggregateFunction → DataType → DataType
  | sum, input | min, input | max, input => input
  | avg, _ => .float .double
  | count, _ => .int .w64

end AggregateFunction

end ColumnarQuery
