import ColumnarQuery.Value.Arithmetic
import ColumnarQuery.Value.Order

/-!
# Running aggregates

An `Accumulator` is the state of an aggregate function after some values: `accumulate` offers it one more, `feed` insists
that it is taken, and `finish` asks for the answer.
-/

namespace ColumnarQuery

inductive Accumulator where
  | sum (total : Option Value)
  | min (least : Option Value)
  | max (greatest : Option Value)
  /-- The sum in double precision, the number of values and their type. -/
  | avg (total : FloatBits .double) (number : Nat) (type : Option DataType)
  | count (number : Nat)
deriving DecidableEq, Repr

def AggregateFunction.start : AggregateFunction → Accumulator
  | sum => .sum none
  | min => .min none
  | max => .max none
  | avg => .avg (.zero .double false) 0 none
  | count => .count 0

namespace Accumulator

def checkNumeric (fn : AggregateFunction) (v : Value) : Except Error Unit :=
  if v.type.isNumeric then .ok () else .error (.unsupported (.aggregateInput fn v.type))

def checkSameType (fn : AggregateFunction) (current : DataType) (v : Value) : Except Error Unit :=
  if current = v.type then .ok () else .error (.unsupported (.mixedInput fn current v.type))

/-- The extreme of the values so far and one more, which replaces it only if it stands in the wanted order to it. -/
def extreme (fn : AggregateFunction) (wanted : Ordering) (state : Option Value) (v : Value) :
    Except Error Value := do
  checkNumeric fn v
  match state with
  | none => return v
  | some current =>
    checkSameType fn current.type v
    return if (← v.compare current) = some wanted then v else current

def addTo (total : Option Value) (v : Value) : Except Error Value := do
  match total with
  | none => return v
  | some current =>
    checkSameType .sum current.type v
    current.calculate (.arithmetic .add) v

def averageType (type : Option DataType) (v : Value) : Except Error DataType := do
  checkNumeric .avg v
  match type with
  | none => return v.type
  | some current =>
    checkSameType .avg current v
    return current

/-- One more value: whether it was taken, and the state after it. A refused value leaves the state as it was, but a
number of another type than the sum so far ends that sum: the next number starts it anew. -/
def accumulate (v : Value) : Accumulator → Except Error Unit × Accumulator
  | sum total =>
    match checkNumeric .sum v with
    | .error e => (.error e, sum total)
    | .ok () =>
      match addTo total v with
      | .error e => (.error e, sum none)
      | .ok total => (.ok (), sum (some total))
  | min least =>
    match extreme .min .lt least v with
    | .error e => (.error e, min least)
    | .ok least => (.ok (), min (some least))
  | max greatest =>
    match extreme .max .gt greatest v with
    | .error e => (.error e, max greatest)
    | .ok greatest => (.ok (), max (some greatest))
  | avg total number type =>
    match averageType type v with
    | .error e => (.error e, avg total number type)
    | .ok type => (.ok (), avg (total.add (v.toDouble?.getD (.zero .double false))) (number + 1) (some type))
  | count number => (.ok (), count (number + 1))

def feed (a : Accumulator) (v : Value) : Except Error Accumulator :=
  match a.accumulate v with
  | (.ok (), a) => .ok a
  | (.error e, _) => .error e

def finish : Accumulator → Except Error Value
  | sum (some v) | min (some v) | max (some v) => .ok v
  | sum none => .error (.unsupported (.noInput .sum))
  | min none => .error (.unsupported (.noInput .min))
  | max none => .error (.unsupported (.noInput .max))
  | avg total number _ =>
    if number = 0 then .error (.unsupported (.noInput .avg))
    else .ok (.float .double (total.div (.ofInt .double number)))
  | count number => .ok (.ofInt .w64 number)

end Accumulator

end ColumnarQuery
