import TinySql.Protocol.Packet
import TinySql.Storage.Table

/-!
# Response packets

OK, ERR and EOF packets, column definitions and text rows: how each is encoded, and the layout of
its payload.
-/

namespace TinySql
open Wire Buffer Packet

namespace ServerStatus

def SERVER_STATUS_AUTOCOMMIT : UInt16 := 0x0002

end ServerStatus

/-! ## Status packets -/

structure OkPacket where
  affectedRows : UInt64
  lastInsertId : UInt64 := 0
  statusFlags : UInt16 := 0
  warnings : UInt16 := 0
  info : Bytes := []
  deriving DecidableEq, Repr

/-- The rest of a payload, `length` bytes; without it the field keeps its value. -/
def readRest (length : Nat) (old : Bytes) : BufferM Bytes :=
  if 0 < length then readString length else return old

/-- `OkPacket()`. -/
def OkPacket.new : OkPacket := ⟨0, 0, 0, 0, []⟩

def OkPacket.readFields (self : OkPacket) (payloadLength : UInt32) : BufferM (Option OkPacket) := do
  let packetHeader ← readUint8
  if packetHeader ≠ 0x00 ∧ packetHeader ≠ 0xFE then return none
  else
    let affectedRows ← readLenencInt
    let lastInsertId ← readLenencInt
    let statusFlags ← readUint16
    let warnings ← readUint16
    -- In `size_t`: the rest is huge when the fields are longer than the payload.
    let remaining := payloadLength.toUInt64 -
      (1 + getLenencIntSize affectedRows + getLenencIntSize lastInsertId + 4)
    let info ← readRest remaining.toNat self.info
    return some ⟨affectedRows, lastInsertId, statusFlags, warnings, info⟩

def OkPacket.decode (self : OkPacket) : BufferM (Option OkPacket) := readPacket self.readFields

def OkPacket.encode (p : OkPacket) (sequenceId : UInt8) (buffer : Buffer) : Buffer :=
  let payload := Buffer.empty.writeUint8 0x00
    |>.writeLenencInt p.affectedRows
    |>.writeLenencInt p.lastInsertId
    |>.writeUint16 p.statusFlags
    |>.writeUint16 p.warnings
  let payload := if p.info ≠ [] then payload.writeString p.info else payload
  writePacket payload sequenceId buffer

structure ErrPacket where
  errorCode : UInt16
  sqlState : Bytes
  errorMessage : Bytes
  deriving DecidableEq, Repr

/-- `ErrPacket()`. -/
def ErrPacket.new : ErrPacket := ⟨0, ascii "HY000", []⟩

/-- The state of SQL that stands in for one of the wrong length. -/
def fiveBytes (sqlState : Bytes) : Bytes := if sqlState.length ≠ 5 then ascii "HY000" else sqlState

/-- `ErrPacket(error_code, sql_state, error_message)`. -/
def ErrPacket.create (errorCode : UInt16) (sqlState errorMessage : Bytes) : ErrPacket :=
  ⟨errorCode, fiveBytes sqlState, errorMessage⟩

def ErrPacket.readFields (self : ErrPacket) (payloadLength : UInt32) :
    BufferM (Option ErrPacket) := do
  let packetHeader ← readUint8
  if packetHeader ≠ 0xFF then return none
  else
    let errorCode ← readUint16
    -- Another marker than '#' is logged only.
    let _ ← readUint8
    let sqlState ← readString 5
    -- In `uint32_t`: the rest is huge for a payload of less than 9 bytes.
    let msgLen := payloadLength - 1 - 2 - 1 - 5
    let errorMessage ← readRest msgLen.toNat self.errorMessage
    return some ⟨errorCode, sqlState, errorMessage⟩

def ErrPacket.decode (self : ErrPacket) : BufferM (Option ErrPacket) := readPacket self.readFields

def ErrPacket.encode (p : ErrPacket) (sequenceId : UInt8) (buffer : Buffer) : Buffer :=
  let payload := Buffer.empty.writeUint8 0xFF
    |>.writeUint16 p.errorCode
    |>.writeUint8 '#'.toUInt8
    |>.writeString (fiveBytes p.sqlState)
  let payload := if p.errorMessage ≠ [] then payload.writeString p.errorMessage else payload
  writePacket payload sequenceId buffer

structure EofPacket where
  warnings : UInt16
  statusFlags : UInt16
  deriving DecidableEq, Repr

def EofPacket.readFields : BufferM (Option EofPacket) := do
  let packetHeader ← readUint8
  if packetHeader ≠ 0xFE then return none
  else
    let warnings ← readUint16
    let statusFlags ← readUint16
    return some ⟨warnings, statusFlags⟩

def EofPacket.decode : BufferM (Option EofPacket) := readPacket fun _ => EofPacket.readFields

def EofPacket.encode (p : EofPacket) (sequenceId : UInt8) (buffer : Buffer) : Buffer :=
  let payload := Buffer.empty.writeUint8 0xFE
    |>.writeUint16 p.warnings
    |>.writeUint16 p.statusFlags
  writePacket payload sequenceId buffer

/-! ## Column definitions -/

namespace MySQLFieldType

def MYSQL_TYPE_TINY : UInt8 := 0x01
def MYSQL_TYPE_LONG : UInt8 := 0x03
def MYSQL_TYPE_FLOAT : UInt8 := 0x04
def MYSQL_TYPE_DOUBLE : UInt8 := 0x05
def MYSQL_TYPE_LONGLONG : UInt8 := 0x08
def MYSQL_TYPE_STRING : UInt8 := 0xFE

end MySQLFieldType

namespace ColumnFlags

def NOT_NULL_FLAG : UInt16 := 0x0001
def PRI_KEY_FLAG : UInt16 := 0x0002
def AUTO_INCREMENT_FLAG : UInt16 := 0x0200

end ColumnFlags

def MySQLCharset.UTF8_GENERAL_CI : UInt16 := 33

open MySQLFieldType in
def dataTypeToMySQLType : DataType → UInt8
  | .int => MYSQL_TYPE_LONG
  | .bigint => MYSQL_TYPE_LONGLONG
  | .float => MYSQL_TYPE_FLOAT
  | .double => MYSQL_TYPE_DOUBLE
  | .varchar | .text => MYSQL_TYPE_STRING
  | .boolean => MYSQL_TYPE_TINY
  | .nullType => MYSQL_TYPE_STRING

def getColumnLength : DataType → UInt32
  | .int => 11
  | .bigint => 20
  | .float => 12
  | .double => 22
  | .boolean => 1
  | .varchar => 255
  | .text => 65535
  | .nullType => 0

structure ColumnDefinitionPacket where
  catalog : Bytes
  schema : Bytes
  table : Bytes
  orgTable : Bytes
  name : Bytes
  orgName : Bytes
  charset : UInt16
  columnLength : UInt32
  columnType : UInt8
  flags : UInt16
  decimals : UInt8
  deriving DecidableEq

open ColumnFlags in
def ColumnDef.flags (col : ColumnDef) : UInt16 :=
  (if col.notNull then NOT_NULL_FLAG else 0) ||| (if col.primaryKey then PRI_KEY_FLAG else 0) |||
    (if col.autoIncrement then AUTO_INCREMENT_FLAG else 0)

def ColumnDefinitionPacket.fromColumnDef (col : ColumnDef) (tableName dbName : Bytes) :
    ColumnDefinitionPacket where
  catalog := ascii "def"
  schema := dbName
  table := tableName
  orgTable := tableName
  name := col.name
  orgName := col.name
  charset := MySQLCharset.UTF8_GENERAL_CI
  columnLength := getColumnLength col.type
  columnType := dataTypeToMySQLType col.type
  flags := col.flags
  decimals := 0

def ColumnDefinitionPacket.encode (p : ColumnDefinitionPacket) (sequenceId : UInt8)
    (buffer : Buffer) : Buffer :=
  let payload := Buffer.empty.writeLenencString p.catalog
    |>.writeLenencString p.schema
    |>.writeLenencString p.table
    |>.writeLenencString p.orgTable
    |>.writeLenencString p.name
    |>.writeLenencString p.orgName
    |>.writeUint8 0x0c
    |>.writeUint16 p.charset
    |>.writeUint32 p.columnLength
    |>.writeUint8 p.columnType
    |>.writeUint16 p.flags
    |>.writeUint8 p.decimals
    |>.writeUint16 0x0000
  writePacket payload sequenceId buffer

/-! ## Rows -/

/-- The values of a `TextResultRowPacket`, written one by one. -/
def TextResultRowPacket.writeValue (payload : Buffer) (value : Value) : Buffer :=
  if value.isNull then payload.writeUint8 0xFB else payload.writeLenencString value.toString

def TextResultRowPacket.encode (values : List Value) (sequenceId : UInt8) (buffer : Buffer) :
    Buffer :=
  writePacket (values.foldl TextResultRowPacket.writeValue Buffer.empty) sequenceId buffer

/-! ## The layout of the payloads -/

/-- A length-encoded string, as `writeLenencString` writes it: the length is 64 bits wide. -/
def lenencText (text : Bytes) : Bytes := lenencBytes (text.length % 2 ^ 64) ++ text

def OkPacket.payload (p : OkPacket) : Bytes :=
  0x00 :: (lenencBytes p.affectedRows.toNat ++ lenencBytes p.lastInsertId.toNat ++
    le 2 p.statusFlags.toNat ++ le 2 p.warnings.toNat ++ p.info)

def ErrPacket.payload (p : ErrPacket) : Bytes :=
  0xFF :: (le 2 p.errorCode.toNat ++ ascii "#" ++ fiveBytes p.sqlState ++ p.errorMessage)

def EofPacket.payload (p : EofPacket) : Bytes :=
  0xFE :: (le 2 p.warnings.toNat ++ le 2 p.statusFlags.toNat)

def ColumnDefinitionPacket.payload (p : ColumnDefinitionPacket) : Bytes :=
  lenencText p.catalog ++ lenencText p.schema ++ lenencText p.table ++ lenencText p.orgTable ++
    lenencText p.name ++ lenencText p.orgName ++ [0x0c] ++ le 2 p.charset.toNat ++
    le 4 p.columnLength.toNat ++ [p.columnType] ++ le 2 p.flags.toNat ++ [p.decimals] ++ le 2 0

/-- A cell: the mark of NULL, or the text of the value. -/
def cellBytes (value : Value) : Bytes :=
  if value.isNull then [0xFB] else lenencText value.toString

variable {b : Buffer} {queue : Bytes}

namespace Buffer

theorem Sound.lenencText (sound : Sound b queue) (str : Bytes) :
    Sound (b.writeLenencString str) (queue ++ lenencText str) := by
  have written := (sound.writeLenencInt (UInt64.ofNat str.length)).writeString str
  rwa [UInt64.toNat_ofNat', List.append_assoc] at written

theorem Sound.optional (sound : Sound b queue) (str : Bytes) :
    Sound (if str ≠ [] then b.writeString str else b) (queue ++ str) := by
  split_ifs with present
  · exact sound.writeString str
  · rw [not_ne_iff.mp present, List.append_nil]
    exact sound

end Buffer

theorem OkPacket.encode_sound (p : OkPacket) (sequenceId : UInt8) (sound : Sound b queue) :
    Sound (p.encode sequenceId b) (queue ++ packet sequenceId p.payload) := by
  have body := (((((Sound.empty.writeUint8 0x00).writeLenencInt p.affectedRows).writeLenencInt
    p.lastInsertId).writeUint16 p.statusFlags).writeUint16 p.warnings).optional p.info
  exact sound.writePacket body sequenceId

theorem ErrPacket.encode_sound (p : ErrPacket) (sequenceId : UInt8) (sound : Sound b queue) :
    Sound (p.encode sequenceId b) (queue ++ packet sequenceId p.payload) := by
  have body := ((((Sound.empty.writeUint8 0xFF).writeUint16 p.errorCode).writeUint8
    '#'.toUInt8).writeString (fiveBytes p.sqlState)).optional p.errorMessage
  exact sound.writePacket body sequenceId

theorem EofPacket.encode_sound (p : EofPacket) (sequenceId : UInt8) (sound : Sound b queue) :
    Sound (p.encode sequenceId b) (queue ++ packet sequenceId p.payload) := by
  have body := ((Sound.empty.writeUint8 0xFE).writeUint16 p.warnings).writeUint16 p.statusFlags
  exact sound.writePacket body sequenceId

theorem ColumnDefinitionPacket.encode_sound (p : ColumnDefinitionPacket) (sequenceId : UInt8)
    (sound : Sound b queue) :
    Sound (p.encode sequenceId b) (queue ++ packet sequenceId p.payload) := by
  have names := (((((Sound.empty.lenencText p.catalog).lenencText p.schema).lenencText
    p.table).lenencText p.orgTable).lenencText p.name).lenencText p.orgName
  have body := ((((((names.writeUint8 0x0c).writeUint16 p.charset).writeUint32
    p.columnLength).writeUint8 p.columnType).writeUint16 p.flags).writeUint8
      p.decimals).writeUint16 0x0000
  exact sound.writePacket body sequenceId

namespace TextResultRowPacket

theorem writeValue_sound (sound : Sound b queue) (value : Value) :
    Sound (writeValue b value) (queue ++ cellBytes value) := by
  unfold writeValue cellBytes
  split_ifs
  · exact sound.writeUint8 0xFB
  · exact sound.lenencText value.toString

theorem writeValues_sound (values : List Value) (sound : Sound b queue) :
    Sound (values.foldl writeValue b) (queue ++ values.flatMap cellBytes) := by
  induction values generalizing b queue with
  | nil => simpa using sound
  | cons value rest ih =>
      rw [List.foldl_cons, List.flatMap_cons, ← List.append_assoc]
      exact ih (writeValue_sound sound value)

theorem encode_sound (values : List Value) (sequenceId : UInt8) (sound : Sound b queue) :
    Sound (encode values sequenceId b) (queue ++ packet sequenceId (values.flatMap cellBytes)) :=
  sound.writePacket (writeValues_sound values Sound.empty) sequenceId

end TextResultRowPacket

end TinySql
