import TinySql.Common.Float

/-!
# `Value` and `ColumnDef`

A cell is one alternative of a variant. Its order compares the alternatives first and what they
hold only within one of them.
-/

namespace TinySql

inductive DataType where
  | int
  | bigint
  | float
  | double
  | varchar
  | text
  | boolean
  | nullType
  deriving DecidableEq, Repr

inductive Value where
  | null
  | int (val : Int32)
  | bigint (val : Int64)
  | float (val : Single)
  | double (val : Double)
  | string (val : Bytes)
  | bool (val : Bool)
  deriving DecidableEq

namespace Value

def isNull (v : Value) : Bool := v matches .null

def index : Value → Nat
  | .null => 0
  | .int _ => 1
  | .bigint _ => 2
  | .float _ => 3
  | .double _ => 4
  | .string _ => 5
  | .bool _ => 6

def getType : Value → DataType
  | .null => .nullType
  | .int _ => .int
  | .bigint _ => .bigint
  | .float _ => .float
  | .double _ => .double
  | .string _ => .varchar
  | .bool _ => .boolean

def toString : Value → Bytes
  | .null => ascii "NULL"
  | .int val => intToString val.toInt
  | .bigint val => intToString val.toInt
  | .float val => fixed 2 val
  | .double val => fixed 4 val
  | .string val => val
  | .bool val => if val then ascii "TRUE" else ascii "FALSE"

def eq (v other : Value) : Bool :=
  if v.index ≠ other.index then false
  else
    match v, other with
    | .int a, .int b => a == b
    | .bigint a, .bigint b => a == b
    | .float a, .float b => a.eq b
    | .double a, .double b => a.eq b
    | .string a, .string b => a == b
    | .bool a, .bool b => a == b
    | _, _ => true

def less (v other : Value) : Bool :=
  if v.index ≠ other.index then v.index < other.index
  else
    match v, other with
    | .int a, .int b => a < b
    | .bigint a, .bigint b => a < b
    | .float a, .float b => a.less b
    | .double a, .double b => a.less b
    | .string a, .string b => a < b
    | .bool a, .bool b => !a && b
    | _, _ => false

def ne (v other : Value) : Bool := !v.eq other

def lessEq (v other : Value) : Bool := v.less other || v.eq other

def greater (v other : Value) : Bool := !v.lessEq other

def greaterEq (v other : Value) : Bool := !v.less other

end Value

structure ColumnDef where
  name : Bytes
  type : DataType
  primaryKey : Bool := false
  notNull : Bool := false
  autoIncrement : Bool := false
  defaultValue : Value := .null
  deriving DecidableEq

end TinySql
