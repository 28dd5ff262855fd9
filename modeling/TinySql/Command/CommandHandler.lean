import TinySql.Command.Executor
import TinySql.Protocol.Packet
import TinySql.Sql.Parser

/-!
# `CommandHandler` and `CommandDispatcher`

The handlers take what they need from the input buffer and do the rest on the session and the
storage.
-/

namespace TinySql
open Buffer

namespace MySQLCommand

@[match_pattern] def COM_QUIT : UInt8 := 0x01
@[match_pattern] def COM_INIT_DB : UInt8 := 0x02
@[match_pattern] def COM_QUERY : UInt8 := 0x03
@[match_pattern] def COM_PING : UInt8 := 0x0e

end MySQLCommand

/-- `PingCommandHandler::handleCommand`. -/
def handlePing : ExecM Bool := sendOk (okPacket 0 [])

/-- `QuitCommandHandler::handleCommand`. -/
def handleQuit : ExecM Bool := do
  modifySession fun s => { s with state := .closing }
  return true

/-- `find_first_not_of(" \t\n\r")` and `find_last_not_of(" \t\n\r")`, with what is before and
behind erased. -/
def trim (query : Bytes) : Bytes :=
  ((query.dropWhile Lexer.isWhitespace).reverse.dropWhile Lexer.isWhitespace).reverse

/-- `QueryCommandHandler::handleCommand`, on the text it has read. -/
def handleQuery (query : Bytes) : ExecM Bool := do
  match parseQuery (trim query) with
  | .error e => throw e
  | .ok (_, error :: _) =>
      sendErr (.create 1064 (ascii "42000") (ascii "SQL syntax error: " ++ error))
  | .ok (none, []) => sendOk (okPacket 0 [])
  | .ok (some stmt, []) => execute stmt

/-- `InitDbCommandHandler::handleCommand`, on the name it has read. -/
def handleInitDb (database : Bytes) : ExecM Bool := do
  modifySession fun s => { s with currentDatabase := database }
  sendOk (okPacket 0 [])

def unknownCommand : ErrPacket := .create 1047 (ascii "08S01") (ascii "Unknown command")

/-- `readString(readableBytes())`: everything that is in the buffer. -/
def readAll : HandlerM Bytes := do
  let b := (← get).buffer
  onBuffer (readString b.readableBytes)

open MySQLCommand in
def handleCommandByte (cmdByte : UInt8) : HandlerM Bool := do
  match cmdByte with
  | COM_PING => onExec handlePing
  | COM_QUIT => onExec handleQuit
  | COM_QUERY =>
      let query ← readAll
      onExec (handleQuery query)
  | COM_INIT_DB =>
      let database ← readAll
      onExec (handleInitDb database)
  | _ =>
      let _ ← onExec (sendErr unknownCommand)
      return false

def dispatch : HandlerM Bool := do
  if (← get).buffer.readableBytes < 4 then return false
  let payloadLength ← onBuffer readThreeBytes
  let sequenceId ← onBuffer readUint8
  onExec (modifySession fun s => { s with sequenceId := sequenceId })
  if (← get).buffer.readableBytes < payloadLength.toNat then return false
  if payloadLength < 1 then return false
  let cmdByte ← onBuffer readUint8
  handleCommandByte cmdByte

end TinySql
