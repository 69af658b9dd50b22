import ColumnarQuery.Operator
import ColumnarQuery.Schema.Basic

/-!
# Errors

* `Error` : the ways in which a schema, a plan or its execution can fail, each with what it was about;
* `Unsupported`, `SchemaFault` : the causes of an unsupported operation and of an invalid schema;
* `Error.message` : the text of an error.
-/

namespace ColumnarQuery

inductive Unsupported where
  /-- The operator has no meaning on values of the type. -/
  | operand (op : BinaryOp) (type : DataType)
  /-- Two numbers were to be combined by an operator that is not arithmetic. -/
  | notArithmetic (op : BinaryOp)
  | aggregateInput (fn : AggregateFunction) (type : DataType)
  | mixedInput (fn : AggregateFunction) (current new : DataType)
  /-- The aggregate function has no answer without values. -/
  | noInput (fn : AggregateFunction)
  /-- An aggregate, given by its text, stands where one value per row is needed. -/
  | nestedAggregate (aggregate : String)
  /-- A source refused a scan for a reason of its own. -/
  | source (reason : String)
deriving DecidableEq, Repr

inductive SchemaFault where
  | duplicateField (name : String)
  | columnCount (columns fields : Nat)
  | rowSize (values fields : Nat)
  | aggregateColumns (fields columns : Nat)
  /-- A stored batch has a schema other than its source. -/
  | storedBatch (batch source : Schema)
  /-- A scanned batch has a schema other than the scan promises. -/
  | scannedBatch (batch scan : Schema)
deriving DecidableEq, Repr

inductive Error where
  | columnNotFound (name : String)
  | tableNotFound (name : String)
  | lengthMismatch (left right : Nat)
  | typeMismatch (expected actual : DataType)
  | indexOutOfBounds (index length : Nat)
  | unsupported (cause : Unsupported)
  | divisionByZero
  | invalidSchema (fault : SchemaFault)
deriving DecidableEq, Repr

def Unsupported.message : Unsupported → String
  | operand op type => s!"{op.symbol} is not defined for {type.name}"
  | notArithmetic op => s!"{op.symbol} is not an arithmetic operator"
  | aggregateInput fn type => s!"{fn.name} is not supported for {type.name}"
  | mixedInput fn current new => s!"{fn.name} cannot mix {current.name} and {new.name}"
  | noInput fn => s!"{fn.name} over no values"
  | nestedAggregate aggregate => s!"aggregate expression {aggregate} outside of an aggregate"
  | source reason => reason

def SchemaFault.message : SchemaFault → String
  | duplicateField name => s!"duplicate field name '{name}'"
  | columnCount columns fields => s!"batch has {columns} columns but schema has {fields} fields"
  | rowSize values fields => s!"row has {values} values but schema has {fields} fields"
  | aggregateColumns fields columns => s!"aggregate schema has {fields} fields for {columns} output columns"
  | storedBatch batch source =>
    s!"batch schema {batch.render} does not match source schema {source.render}"
  | scannedBatch batch scan => s!"source returned {batch.render} but scan expects {scan.render}"

def Error.message : Error → String
  | columnNotFound name => s!"no column named '{name}'"
  | tableNotFound name => s!"table not found: {name}"
  | lengthMismatch left right =>
    s!"binary expression operands do not have the same size: {left} vs {right}"
  | typeMismatch expected actual => s!"type mismatch: expected {expected.name}, got {actual.name}"
  | indexOutOfBounds index length => s!"index out of bounds {index} vecsize: {length}"
  | unsupported cause => s!"unsupported operation: {cause.message}"
  | divisionByZero => "division by zero"
  | invalidSchema fault => s!"invalid schema: {fault.message}"

end ColumnarQuery
