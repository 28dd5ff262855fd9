import TinySql.Auth.Authenticator
import TinySql.Command.CommandHandler
import TinySql.Protocol.Handshake

/-!
# `ProtocolHandler`

One packet at a time, as the state of the session asks for it. SHA-1 and the random challenge are
parameters.
-/

namespace TinySql
open Buffer

/-- `Session(uint32_t connection_id)`, with the storage of the server as it is then. -/
def newConnection (connectionId : UInt32) (storage : StorageEngine) : Exec :=
  ⟨{ connectionId := connectionId }, storage, []⟩

/-- `sendHandshake`, with the challenge that `generateAuthPluginData` has drawn. -/
def sendHandshake (challenge : Vector UInt8 20) : ExecM Unit := do
  let connectionId := (← get).session.connectionId
  let handshake : HandshakeV10Packet :=
    { connectionId := connectionId, authPluginData := challenge }
  modifySession fun s => { s with authPluginData := challenge }
  let response := handshake.encode 0 Buffer.empty
  emit (.send response.readable)
  modifySession fun s => { s with state := .handshakeSent, sequenceId := 0 }

def badHandshake : ErrPacket := .create 1043 (ascii "08S01") (ascii "Bad handshake")

def accessDenied (username : Bytes) : ErrPacket :=
  .create 1045 (ascii "28000") (ascii "Access denied for user '" ++ username ++ ascii "'")

def abortedConnection : ErrPacket := .create 1184 (ascii "08S01") (ascii "Aborted connection")

variable (sha1 : Bytes → Vector UInt8 20)

/-- `handleAuthentication` behind the decoding of the response. -/
def finishAuthentication (authResponse : HandshakeResponse41Packet) : ExecM Bool := do
  let challenge := (← get).session.authPluginData
  let accepted := Authenticator.authenticate sha1 authResponse.username authResponse.authResponse
    challenge
  emit (.authenticate authResponse.username authResponse.authResponse challenge accepted)
  if accepted then
    modifySession fun s => { s with username := authResponse.username }
    if authResponse.database ≠ [] then
      modifySession fun s => { s with currentDatabase := authResponse.database }
    modifySession fun s => { s with state := .authenticated }
    sendResponse ((okPacket 0 []).encode 2 Buffer.empty)
    return true
  else
    sendResponse ((accessDenied authResponse.username).encode 2 Buffer.empty)
    return false

def handleAuthentication : HandlerM Bool := do
  match ← onBuffer (HandshakeResponse41Packet.decode {}) with
  | none =>
      onExec (sendResponse (badHandshake.encode 2 Buffer.empty))
      return false
  | some authResponse => onExec (finishAuthentication sha1 authResponse)

def handleCommand : HandlerM Bool := do
  if !(← get).exec.session.isAuthenticated then
    onExec (do
      let response ← encodeNext abortedConnection.encode Buffer.empty
      sendResponse response)
    return false
  onExec (emit .dispatch)
  let result ← dispatch
  if (← get).exec.session.state = .closing then return false
  return result

/-- `handleData`: whether the connection is kept. -/
def handleData : HandlerM Bool := do
  let packetSize ← onBuffer checkPacketComplete
  if packetSize = 0 then return true
  match (← get).exec.session.state with
  | .handshakeSent => handleAuthentication sha1
  | .authenticated | .commandPhase => handleCommand
  | _ => return false

/-- A call without a whole packet does nothing; with one, the session decides. -/
theorem handleData_run (input : Buffer) (e : Exec) : (handleData sha1).run ⟨input, e⟩ =
    if 4 ≤ input.readableBytes ∧ 4 + payloadLength input.readable ≤ input.readableBytes then
      (match e.session.state with
      | .handshakeSent => handleAuthentication sha1
      | .authenticated | .commandPhase => handleCommand
      | _ => pure false : HandlerM Bool).run ⟨input, e⟩
    else .ok true ⟨input, e⟩ := by
  simp only [handleData, EStateM.run_bind, onBuffer_run, checkPacketComplete_run]
  split
  · rw [if_neg (by omega), EStateM.run_bind, EStateM.run_get]
  · rfl

end TinySql
