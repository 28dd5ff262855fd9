import TinySql.Common.BufferLaws
import TinySql.Storage.StorageEngine

/-!
# `Session`, and what a handler works on

The state of one client connection, and around it what the handlers of a connection read and
change: the input buffer, the storage engine, and a record of what they have done.
-/

namespace TinySql

inductive SessionState where
  | init
  | handshakeSent
  | authenticating
  | authenticated
  | commandPhase
  | closing
  | closed
  deriving DecidableEq, Repr

structure Session where
  connectionId : UInt32
  state : SessionState := .init
  username : Bytes := []
  currentDatabase : Bytes := []
  sequenceId : UInt8 := 0
  authPluginData : Vector UInt8 20 := .replicate 20 0

def Session.isAuthenticated (s : Session) : Bool :=
  s.state = .authenticated || s.state = .commandPhase

/-- What a handler has done. -/
inductive Event where
  /-- `Authenticator::authenticate` was called with these arguments and returned this. -/
  | authenticate (username authResponse : Bytes) (challenge : Vector UInt8 20) (accepted : Bool)
  /-- `CommandDispatcher::dispatch` is called. -/
  | dispatch
  /-- The response callback was called with a buffer that showed these bytes. -/
  | respond (bytes : Bytes)
  /-- `TcpConnection::send` was called with these bytes. -/
  | send (bytes : Bytes)

/-- The session, the storage, and the events so far, the latest last. -/
structure Exec where
  session : Session
  storage : StorageEngine
  events : List Event

/-- The execution of a statement: it sees no input buffer. -/
abbrev ExecM := EStateM Exn Exec

structure Context where
  buffer : Buffer
  exec : Exec

/-- A handler: what it has changed when it throws stays changed. -/
abbrev HandlerM := EStateM Exn Context

def onBuffer {α : Type} (m : BufferM α) : HandlerM α := fun c =>
  match m.run c.buffer with
  | .ok a buffer => .ok a { c with buffer := buffer }
  | .error e buffer => .error e { c with buffer := buffer }

def onExec {α : Type} (m : ExecM α) : HandlerM α := fun c =>
  match m.run c.exec with
  | .ok a exec => .ok a { c with exec := exec }
  | .error e exec => .error e { c with exec := exec }

def emit (event : Event) : ExecM Unit :=
  modify fun exec => { exec with events := exec.events ++ [event] }

def modifySession (f : Session → Session) : ExecM Unit :=
  modify fun exec => { exec with session := f exec.session }

def nextSequenceId : ExecM UInt8 := do
  let session := (← get).session
  modifySession fun s => { s with sequenceId := s.sequenceId + 1 }
  return session.sequenceId

def sendResponse (response : Buffer) : ExecM Unit := do
  if 0 < response.readableBytes then emit (.send response.readable)

/-- The response callback that `ProtocolHandler::handleCommand` hands to the dispatcher. -/
def responseCallback (response : Buffer) : ExecM Unit := do
  emit (.respond response.readable)
  sendResponse response

/-! ## Running the primitives -/

@[simp] theorem map_run {ε σ α β : Type} (f : α → β) (m : EStateM ε σ α) (s : σ) :
    (f <$> m).run s = match m.run s with
    | .ok a s' => .ok (f a) s'
    | .error e s' => .error e s' := rfl

@[simp] theorem emit_run (event : Event) (e : Exec) :
    (emit event).run e = .ok () { e with events := e.events ++ [event] } := rfl

@[simp] theorem modifySession_run (f : Session → Session) (e : Exec) :
    (modifySession f).run e = .ok () { e with session := f e.session } := rfl

@[simp] theorem nextSequenceId_run (e : Exec) : nextSequenceId.run e =
    .ok e.session.sequenceId
      { e with session := { e.session with sequenceId := e.session.sequenceId + 1 } } := rfl

theorem responseCallback_run {response : Buffer} (more : response.readable ≠ []) (e : Exec) :
    (responseCallback response).run e = .ok () { e with
      events := e.events ++ [.respond response.readable, .send response.readable] } := by
  have positive : 0 < response.readableBytes := by
    rw [← Buffer.readable_length]
    exact List.length_pos_iff.mpr more
  simp [responseCallback, sendResponse, positive]

@[simp] theorem onBuffer_run {α : Type} (m : BufferM α) (c : Context) : (onBuffer m).run c =
    match m.run c.buffer with
    | .ok a buffer => .ok a { c with buffer := buffer }
    | .error e buffer => .error e { c with buffer := buffer } := rfl

@[simp] theorem onExec_run {α : Type} (m : ExecM α) (c : Context) : (onExec m).run c =
    match m.run c.exec with
    | .ok a exec => .ok a { c with exec := exec }
    | .error e exec => .error e { c with exec := exec } := rfl

end TinySql
