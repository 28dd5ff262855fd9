import TinySql.Common.Bytes

/-!
# The syntax tree

Expressions and statements, and the text that each of them prints.
-/

namespace TinySql

inductive Expression where
  | identifier (name : Bytes)
  | numberLiteral (value : Bytes)
  | stringLiteral (value : Bytes)
  | binary (left : Expression) (op : Bytes) (right : Expression)
  deriving DecidableEq, Repr

def Expression.toString : Expression → Bytes
  | .identifier name => name
  | .numberLiteral value => value
  | .stringLiteral value => ascii "'" ++ value ++ ascii "'"
  | .binary left op right =>
      ascii "(" ++ left.toString ++ ascii " " ++ op ++ ascii " " ++ right.toString ++ ascii ")"

def commaSeparated (elements : List Bytes) : Bytes := (ascii ", ").intercalate elements

structure SelectStatement where
  columns : List Expression := []
  tableName : Bytes := []
  whereClause : Option Expression := none
  limit : Int32 := -1
  offset : Int32 := 0
  deriving DecidableEq, Repr

def SelectStatement.toString (stmt : SelectStatement) : Bytes :=
  ascii "SELECT " ++
  (if stmt.columns = [] then ascii "*" else commaSeparated (stmt.columns.map (·.toString))) ++
  (if stmt.tableName = [] then [] else ascii " FROM " ++ stmt.tableName) ++
  (match stmt.whereClause with
    | some expr => ascii " WHERE " ++ expr.toString
    | none => []) ++
  (if 0 ≤ stmt.limit then ascii " LIMIT " ++ intToString stmt.limit.toInt else []) ++
  (if 0 < stmt.offset then ascii " OFFSET " ++ intToString stmt.offset.toInt else [])

structure InsertStatement where
  tableName : Bytes := []
  columns : List Bytes := []
  values : List Expression := []
  deriving DecidableEq, Repr

def InsertStatement.toString (stmt : InsertStatement) : Bytes :=
  ascii "INSERT INTO " ++ stmt.tableName ++
  (if stmt.columns = [] then [] else ascii " (" ++ commaSeparated stmt.columns ++ ascii ")") ++
  ascii " VALUES (" ++ commaSeparated (stmt.values.map (·.toString)) ++ ascii ")"

/-- `CreateTableStatement::ColumnDefinition`. -/
structure ColumnDefinition where
  name : Bytes := []
  type : Bytes := []
  primaryKey : Bool := false
  notNull : Bool := false
  autoIncrement : Bool := false
  defaultValue : Bytes := []
  deriving DecidableEq, Repr

structure CreateTableStatement where
  tableName : Bytes := []
  columns : List ColumnDefinition := []
  deriving DecidableEq, Repr

def ColumnDefinition.toString (col : ColumnDefinition) : Bytes :=
  col.name ++ ascii " " ++ col.type ++
  (if col.notNull then ascii " NOT NULL" else []) ++
  (if col.primaryKey then ascii " PRIMARY KEY" else []) ++
  (if col.autoIncrement then ascii " AUTO_INCREMENT" else []) ++
  (if col.defaultValue ≠ [] then ascii " DEFAULT " ++ col.defaultValue else [])

def CreateTableStatement.toString (stmt : CreateTableStatement) : Bytes :=
  ascii "CREATE TABLE " ++ stmt.tableName ++ ascii " (" ++
  commaSeparated (stmt.columns.map (·.toString)) ++ ascii ")"

inductive Statement where
  | select (stmt : SelectStatement)
  | insert (stmt : InsertStatement)
  | createTable (stmt : CreateTableStatement)
  | dropTable (tableName : Bytes)
  | showTables
  | showDatabases
  | useDatabase (databaseName : Bytes)
  deriving DecidableEq, Repr

def Statement.toString : Statement → Bytes
  | .select stmt => stmt.toString
  | .insert stmt => stmt.toString
  | .createTable stmt => stmt.toString
  | .dropTable tableName => ascii "DROP TABLE " ++ tableName
  | .showTables => ascii "SHOW TABLES"
  | .showDatabases => ascii "SHOW DATABASES"
  | .useDatabase databaseName => ascii "USE " ++ databaseName

end TinySql
