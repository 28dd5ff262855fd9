import TinySql.Protocol.Response
import TinySql.Session.Session
import TinySql.Sql.Token
import TinySql.Storage.ExpressionEvaluator

/-!
# The execution of statements

`QueryCommandHandler::execute…`, one for each statement. A statement either throws the ERR packet
with which it is answered or comes to its end; what it has changed in the storage by then stays.
-/

namespace TinySql

/-- A statement at work on the storage, which may end in an ERR packet. -/
abbrev StatementM := EStateM ErrPacket StorageEngine

def parseDataType (typeStr : Bytes) : DataType :=
  let typeUpper := typeStr.map toUpper
  if typeUpper = ascii "INT" ∨ typeUpper = ascii "INTEGER" then .int
  else if typeUpper = ascii "BIGINT" then .bigint
  else if typeUpper = ascii "FLOAT" then .float
  else if typeUpper = ascii "DOUBLE" then .double
  else if (ascii "VARCHAR").isPrefixOf typeUpper then .varchar
  else if typeUpper = ascii "TEXT" then .text
  else if typeUpper = ascii "BOOLEAN" ∨ typeUpper = ascii "BOOL" then .boolean
  else .varchar

/-- A conversion, or the text itself when the conversion throws. -/
def orText {α : Type} (valStr : Bytes) (make : α → Value) : Except Exn α → Value
  | .ok val => make val
  | .error _ => .string valStr

def expressionToValue (expr : Expression) (targetType : DataType) : Value :=
  match expr with
  | .identifier _ => .null
  | .numberLiteral valStr =>
      match targetType with
      | .int => orText valStr .int (stoi valStr)
      | .bigint => orText valStr .bigint (stoll valStr)
      | .float => orText valStr .float (stof valStr)
      | .double => orText valStr .double (stod valStr)
      | _ => .string valStr
  | .stringLiteral val => .string val
  | .binary _ _ _ => .null

/-! ## What several statements begin with -/

def noDatabaseSelected : ErrPacket :=
  .create 1046 (ascii "3D000") (ascii "No database selected")

def unknownDatabase (dbName : Bytes) : ErrPacket :=
  .create 1049 (ascii "42000") (ascii "Unknown database '" ++ dbName ++ ascii "'")

def tableDoesntExist (dbName tableName : Bytes) : ErrPacket :=
  .create 1146 (ascii "42S02")
    (ascii "Table '" ++ dbName ++ ascii "." ++ tableName ++ ascii "' doesn't exist")

/-- The current database, which has to be selected and to exist. -/
def selectedDatabase (dbName : Bytes) : StatementM Database := do
  if dbName = [] then throw noDatabaseSelected
  match (← get).getDatabase dbName with
  | some db => return db
  | none => throw (unknownDatabase dbName)

def existingTable (dbName : Bytes) (db : Database) (tableName : Bytes) : StatementM Table :=
  match db.getTable tableName with
  | some table => return table
  | none => throw (tableDoesntExist dbName tableName)

/-! ## SELECT -/

/-- What a SELECT sends: the columns, the position of each in a row, and the rows. -/
structure SelectResult where
  columns : List ColumnDef
  indices : List Nat
  rows : List Row

def resolveColumn (table : Table) (expr : Expression) : Except ErrPacket (ColumnDef × Nat) :=
  match expr with
  | .identifier name =>
      match (table.getColumnIndex name).bind fun i => (table.columns[i]?).map (·, i) with
      | some found => .ok found
      | none => .error (.create 1054 (ascii "42S22")
          (ascii "Unknown column '" ++ name ++ ascii "' in 'field list'"))
  | _ => .error (.create 1064 (ascii "42000") (ascii "Invalid column expression"))

/-- The columns of the field list, with their positions; a single `*` stands for all. -/
def resolveColumns (table : Table) (exprs : List Expression) :
    Except ErrPacket (List (ColumnDef × Nat)) :=
  if exprs = [.identifier (ascii "*")] then .ok table.columns.zipIdx
  else exprs.mapM (resolveColumn table)

/-- The rows that the condition keeps; the first one on which it throws ends the scan. -/
def filterRows (keep : Row → Except Exn Bool) : List Row → Except Exn (List Row)
  | [] => .ok []
  | row :: rest => do
      let isMatch ← keep row
      let kept ← filterRows keep rest
      return if isMatch then row :: kept else kept

def matchesWhere (whereClause : Option Expression) (columns : List ColumnDef) (row : Row) :
    Except Exn Bool :=
  match whereClause with
  | some expr => ExpressionEvaluator.evaluate row columns expr
  | none => .ok true

def toSizeT (n : Int32) : Nat := n.toInt64.toUInt64.toNat

def applyLimit (offset limit : Int32) (rows : List Row) : List Row :=
  if rows.length ≤ toSizeT offset then []
  else
    let rows := rows.drop (toSizeT offset)
    if 0 ≤ limit ∧ toSizeT limit < rows.length then rows.take (toSizeT limit) else rows

/-- The value or the ERR packet of a computation that does not touch the storage. -/
def ofExcept {α : Type} : Except ErrPacket α → StatementM α
  | .ok a => pure a
  | .error e => throw e

def whereError (e : Exn) : ErrPacket :=
  .create 1064 (ascii "42000") (ascii "Error evaluating WHERE clause: " ++ e.what)

/-- `executeSelect` up to its result set. -/
def selectRows (stmt : SelectStatement) (dbName : Bytes) : StatementM SelectResult := do
  let db ← selectedDatabase dbName
  let table ← existingTable dbName db stmt.tableName
  let found ← ofExcept (resolveColumns table stmt.columns)
  let rows ← ofExcept
    ((filterRows (matchesWhere stmt.whereClause table.columns) table.rows).mapError whereError)
  return ⟨found.map Prod.fst, found.map Prod.snd, applyLimit stmt.offset stmt.limit rows⟩

def encodeNext (encode : UInt8 → Buffer → Buffer) (response : Buffer) : ExecM Buffer := do
  return encode (← nextSequenceId) response

/-- `Row::getValue`, which checks its index. -/
def getValue (row : Row) (index : Nat) : ExecM Value :=
  match row[index]? with
  | some value => return value
  | none => throw (.outOfRange (ascii "vector::_M_range_check: __n (which is " ++
      natToString index ++ ascii ") >= this->size() (which is " ++ natToString row.length ++
      ascii ")"))

/-- The packet that ends the column definitions, and the rows. -/
def resultSetEof : EofPacket := ⟨0, ServerStatus.SERVER_STATUS_AUTOCOMMIT⟩

/-- The result set of a SELECT: column count, column definitions, EOF, rows, EOF. -/
def encodeResultSet (result : SelectResult) (tableName dbName : Bytes) : ExecM Buffer := do
  let colCount := Buffer.empty.writeLenencInt (UInt64.ofNat result.columns.length)
  let response ← encodeNext (Packet.writePacket colCount) Buffer.empty
  let response ← result.columns.foldlM (fun response col =>
    encodeNext (ColumnDefinitionPacket.fromColumnDef col tableName dbName).encode response) response
  let response ← encodeNext resultSetEof.encode response
  let response ← result.rows.foldlM (fun response row => do
    let projected ← result.indices.mapM (getValue row)
    encodeNext (TextResultRowPacket.encode projected) response) response
  encodeNext resultSetEof.encode response

/-! ## INSERT -/

/-- A cell of a row that is inserted by names: the value for its name, else the next
AUTO_INCREMENT value, else the default. -/
def namedCell (given : List (Bytes × Expression)) (col : ColumnDef) (table : Table) :
    Value × Table :=
  match given.find? (·.1 == col.name) with
  | some (_, expr) => (expressionToValue expr col.type, table)
  | none =>
      if col.autoIncrement then
        let (next, table) := table.getNextAutoIncrementValue
        (.int next.toInt32, table)
      else (col.defaultValue, table)

/-- The row that is inserted by names, and the table whose counter it has used. -/
def namedRow (given : List (Bytes × Expression)) : List ColumnDef → Table → Row × Table
  | [], table => ([], table)
  | col :: rest, table =>
      let (value, table) := namedCell given col table
      let (row, table) := namedRow given rest table
      (value :: row, table)

def columnCountMismatch : ErrPacket :=
  .create 1136 (ascii "21S01") (ascii "Column count doesn't match value count")

def failedToInsert : ErrPacket := .create 1062 (ascii "23000") (ascii "Failed to insert row")

/-- The row of an INSERT, and the table whose counter it has used. -/
def buildRow (stmt : InsertStatement) (table : Table) : Except ErrPacket (Row × Table) :=
  if stmt.columns ≠ [] then
    if stmt.columns.length ≠ stmt.values.length then .error columnCountMismatch
    else .ok (namedRow (stmt.columns.zip stmt.values) table.columns table)
  else if stmt.values.length ≠ table.columns.length then .error columnCountMismatch
  else .ok (List.zipWith (fun expr col => expressionToValue expr col.type) stmt.values
    table.columns, table)

def okPacket (lastInsertId : UInt64) (info : Bytes) : OkPacket :=
  ⟨0, lastInsertId, ServerStatus.SERVER_STATUS_AUTOCOMMIT, 0, info⟩

def executeInsert (stmt : InsertStatement) (dbName : Bytes) : StatementM OkPacket := do
  let db ← selectedDatabase dbName
  let table ← existingTable dbName db stmt.tableName
  let (row, table) ← ofExcept (buildRow stmt table)
  modify (StorageEngine.setTable dbName db stmt.tableName table)
  match table.insertRow row with
  | none => throw failedToInsert
  | some table =>
      modify (StorageEngine.setTable dbName db stmt.tableName table)
      return okPacket 1 []

/-! ## The other statements -/

def columnDef (astCol : ColumnDefinition) : ColumnDef where
  name := astCol.name
  type := parseDataType astCol.type
  primaryKey := astCol.primaryKey
  notNull := astCol.notNull
  autoIncrement := astCol.autoIncrement
  defaultValue := if astCol.defaultValue ≠ [] then .string astCol.defaultValue else .null

def newTable (stmt : CreateTableStatement) : Table :=
  stmt.columns.foldl (fun table astCol => table.addColumn (columnDef astCol))
    (Table.create stmt.tableName)

def executeCreateTable (stmt : CreateTableStatement) (dbName : Bytes) : StatementM OkPacket := do
  if dbName = [] then throw noDatabaseSelected
  let (db, storage) := (← get).getOrCreateDatabase dbName
  set storage
  match db with
  | none => throw (unknownDatabase dbName)
  | some db =>
      if db.hasTable stmt.tableName then
        throw (.create 1050 (ascii "42S01")
          (ascii "Table '" ++ stmt.tableName ++ ascii "' already exists"))
      match db.createTable (newTable stmt) with
      | none => throw (.create 1050 (ascii "42S01")
          (ascii "Failed to create table '" ++ stmt.tableName ++ ascii "'"))
      | some db =>
          modify (StorageEngine.setDatabase dbName db)
          return okPacket 0 []

def executeDropTable (tableName dbName : Bytes) : StatementM OkPacket := do
  let db ← selectedDatabase dbName
  match db.dropTable tableName with
  | none => throw (.create 1051 (ascii "42S02")
      (ascii "Unknown table '" ++ tableName ++ ascii "'"))
  | some db =>
      modify (StorageEngine.setDatabase dbName db)
      return okPacket 0 []

def executeShowTables (dbName : Bytes) : StatementM OkPacket := do
  if dbName = [] then throw noDatabaseSelected
  match (← get).getDatabase dbName with
  | none => return okPacket 0 (ascii "No tables in database")
  | some db =>
      let names := db.getTableNames
      let list := if names = [] then ascii "(none)" else commaSeparated names
      return okPacket 0 (ascii "Tables in " ++ dbName ++ ascii ": " ++ list)

def executeShowDatabases : StatementM OkPacket := do
  return okPacket 0 (ascii "Databases: " ++ commaSeparated (← get).getDatabaseNames)

/-! ## The answers -/

/-- Run a statement on the storage of a session; an ERR packet that it throws is the result. -/
def onStorage {α : Type} (body : StatementM α) : ExecM (Except ErrPacket α) := fun exec =>
  match body.run exec.storage with
  | .ok a storage => .ok (.ok a) { exec with storage := storage }
  | .error e storage => .ok (.error e) { exec with storage := storage }

def sendErr (p : ErrPacket) : ExecM Bool := do
  responseCallback (← encodeNext p.encode Buffer.empty)
  return true

def sendOk (p : OkPacket) : ExecM Bool := do
  responseCallback (← encodeNext p.encode Buffer.empty)
  return true

def answer (body : StatementM OkPacket) : ExecM Bool := do
  match ← onStorage body with
  | .ok p => sendOk p
  | .error p => sendErr p

def executeSelect (stmt : SelectStatement) : ExecM Bool := do
  let dbName := (← get).session.currentDatabase
  match ← onStorage (selectRows stmt dbName) with
  | .error p => sendErr p
  | .ok result =>
      responseCallback (← encodeResultSet result stmt.tableName dbName)
      return true

def executeUseDatabase (databaseName : Bytes) : ExecM Bool := do
  modifySession fun s => { s with currentDatabase := databaseName }
  sendOk (okPacket 0 (ascii "Database changed to: " ++ databaseName))

def execute (stmt : Statement) : ExecM Bool := do
  let dbName := (← get).session.currentDatabase
  match stmt with
  | .select stmt => executeSelect stmt
  | .insert stmt => answer (executeInsert stmt dbName)
  | .createTable stmt => answer (executeCreateTable stmt dbName)
  | .dropTable tableName => answer (executeDropTable tableName dbName)
  | .showTables => answer (executeShowTables dbName)
  | .showDatabases => answer executeShowDatabases
  | .useDatabase databaseName => executeUseDatabase databaseName

end TinySql
