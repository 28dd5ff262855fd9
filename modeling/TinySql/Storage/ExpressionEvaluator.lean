import TinySql.Sql.Ast
import TinySql.Storage.Table

/-!
# `ExpressionEvaluator`

The WHERE clause of a row: `evaluate` gives a condition and `evaluateValue` a value, each in terms
of the other, and both may throw.
-/

namespace TinySql.ExpressionEvaluator

/-- What `evaluate` makes of a value that stands as a condition. -/
def condition : Value → Bool
  | .bool val => val
  | .null => false
  | .int val => val != 0
  | .bigint val => val != 0
  | .float val => nonZero val
  | .double val => nonZero val
  | .string val => val != []

def evaluateIdentifier (row : Row) (columns : List ColumnDef) (colName : Bytes) :
    Except Exn Value :=
  match columns.findIdx? (·.name == colName) with
  | some i =>
      match row[i]? with
      | some value => .ok value
      | none => .error (.runtimeError
          (ascii "Row has insufficient columns for identifier: " ++ colName))
  | none => .error (.runtimeError (ascii "Unknown column in expression: " ++ colName))

/-- `evaluateLiteral` of a number. -/
def evaluateNumber (valueStr : Bytes) : Except Exn Value :=
  if '.'.toUInt8 ∈ valueStr ∨ 'e'.toUInt8 ∈ valueStr ∨ 'E'.toUInt8 ∈ valueStr then
    match stod valueStr with
    | .ok val => .ok (.double val)
    | .error _ => .error (.runtimeError (ascii "Invalid floating point literal: " ++ valueStr))
  else
    match stoll valueStr with
    | .ok val =>
        if Int32.minValue.toInt64 ≤ val ∧ val ≤ Int32.maxValue.toInt64 then
          .ok (.int val.toInt32)
        else .ok (.bigint val)
    | .error _ => .error (.runtimeError (ascii "Invalid integer literal: " ++ valueStr))

/-- `compareValues`; a NULL operand decides before the operator is looked at. -/
def compareValues (left : Value) (op : Bytes) (right : Value) : Except Exn Bool :=
  if left.isNull || right.isNull then .ok false
  else if op = ascii "=" then .ok (left.eq right)
  else if op = ascii "!=" then .ok (left.ne right)
  else if op = ascii "<" then .ok (left.less right)
  else if op = ascii ">" then .ok (left.greater right)
  else if op = ascii "<=" then .ok (left.lessEq right)
  else if op = ascii ">=" then .ok (left.greaterEq right)
  else .error (.runtimeError (ascii "Unknown comparison operator: " ++ op))

/-- `evaluateBinaryExpression`, given what evaluating its operands would yield: as conditions for
AND and OR, which look at the right one only when they need it, and as values otherwise. -/
def evaluateBinaryExpression (op : Bytes) (left right : Unit → Except Exn Bool)
    (leftValue rightValue : Unit → Except Exn Value) : Except Exn Bool := do
  if op = ascii "AND" then
    if ← left () then right () else return false
  else if op = ascii "OR" then
    if ← left () then return true else right ()
  else
    let leftValue ← leftValue ()
    let rightValue ← rightValue ()
    compareValues leftValue op rightValue

def isBooleanOperator (op : Bytes) : Bool :=
  op ∈ [ascii "AND", ascii "OR", ascii "=", ascii "!=", ascii "<", ascii ">", ascii "<=",
    ascii ">="]

mutual

def evaluate (row : Row) (columns : List ColumnDef) : Expression → Except Exn Bool
  | .identifier name => condition <$> evaluateIdentifier row columns name
  | .numberLiteral value => condition <$> evaluateNumber value
  | .stringLiteral value => .ok (condition (.string value))
  | .binary left op right =>
      evaluateBinaryExpression op
        (fun _ => evaluate row columns left) (fun _ => evaluate row columns right)
        (fun _ => evaluateValue row columns left) (fun _ => evaluateValue row columns right)

def evaluateValue (row : Row) (columns : List ColumnDef) : Expression → Except Exn Value
  | .identifier name => evaluateIdentifier row columns name
  | .numberLiteral value => evaluateNumber value
  | .stringLiteral value => .ok (.string value)
  | .binary left op right =>
      if isBooleanOperator op then
        Value.bool <$> evaluateBinaryExpression op
          (fun _ => evaluate row columns left) (fun _ => evaluate row columns right)
          (fun _ => evaluateValue row columns left) (fun _ => evaluateValue row columns right)
      else .error (.runtimeError (ascii "Unsupported operator in expression: " ++ op))

end

end TinySql.ExpressionEvaluator
