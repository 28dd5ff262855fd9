import Mathlib.Data.Finset.Basic
import Mathlib.Data.List.AList
import TinySql.Network.Output

/-!
# `Server`

The events of the server and the callbacks of `main`: which descriptors are open, which connection
objects the server and the protocol handlers refer to, and who closes what. An object is destroyed
with the last reference to it.
-/

namespace TinySql

/-- A `TcpConnection` object; it has no descriptor once it has been closed. -/
structure Connection where
  fd : Option Nat
  output : Output := {}

/-- The server and the descriptors of the kernel. The maps refer to connection objects by their
position in the list of all objects. -/
structure Server where
  maxConnections : Nat
  opened : Finset Nat := ∅
  registered : Finset Nat := ∅
  objects : List Connection := []
  connections : AList (fun _ : Nat => Nat) := ∅
  protocolHandlers : AList (fun _ : Nat => Nat) := ∅

namespace Server

/-- `closeSocket`. The kernel takes a closed descriptor out of the event loop, too. -/
def closeSocket (fd : Nat) (s : Server) : Server :=
  { s with opened := s.opened.erase fd, registered := s.registered.erase fd }

def setObject (id : Nat) (c : Connection) (s : Server) : Server :=
  { s with objects := s.objects.set id c }

def close (id : Nat) (s : Server) : Server :=
  match s.objects[id]? with
  | none => s
  | some c =>
      if !c.output.connected then s
      else
        let s := s.setObject id { fd := none, output := { c.output with connected := false } }
        match c.fd with
        | some fd => s.closeSocket fd
        | none => s

def referenced (id : Nat) (s : Server) : Bool :=
  s.connections.entries.any (·.2 == id) || s.protocolHandlers.entries.any (·.2 == id)

/-- A reference goes away; with the last one `~TcpConnection` closes the connection. -/
def release (id : Nat) (s : Server) : Server := if s.referenced id then s else s.close id

def releaseAll (ids : Option Nat) (s : Server) : Server := ids.elim s fun id => s.release id

def handleClose (fd : Nat) (s : Server) : Server :=
  if fd ∈ s.connections then
    { s with registered := s.registered.erase fd, connections := s.connections.erase fd }
  else s

/-- The close callback of a connection, which calls the one of `main`. -/
def closeCallback (fd : Nat) (s : Server) : Server :=
  let s := s.handleClose fd
  { s with protocolHandlers := s.protocolHandlers.erase fd }

/-- `TcpConnection::handleClose`. The flag is cleared before `close`, which then does nothing. -/
def handleConnectionClose (id : Nat) (s : Server) : Server :=
  match s.objects[id]? with
  | none => s
  | some c =>
      if c.output.connected then
        let s := s.setObject id { c with output := { c.output with connected := false } }
        let s := c.fd.elim s fun fd => s.closeCallback fd
        s.close id
      else s

def sendAll (sends : List (Bytes × Written)) (c : Connection) : Connection :=
  { c with output := sends.foldl (fun output (data, written) => (output.send data written).2) c.output }

def send (id : Nat) (sends : List (Bytes × Written)) (s : Server) : Server :=
  match s.objects[id]? with
  | none => s
  | some c => s.setObject id (sendAll sends c)

/-- The connection callback of `main`: a protocol handler that sends the greeting. -/
def connectionCallback (fd id : Nat) (greeting : Bytes × Written) (s : Server) : Server :=
  let old := s.protocolHandlers.lookup fd
  let s := { s with protocolHandlers := s.protocolHandlers.insert fd id }
  (s.releaseAll old).send id [greeting]

/-- One turn of the loop of `handleAccept`. -/
def handleAccept (fd : Nat) (nonBlocking added : Bool) (greeting : Bytes × Written)
    (s : Server) : Server :=
  let s := { s with opened := insert fd s.opened }
  if s.maxConnections ≤ s.connections.keys.length then s.closeSocket fd
  else if !nonBlocking then s.closeSocket fd
  else
    let id := s.objects.length
    let s := { s with objects := s.objects ++ [Connection.mk (some fd) {}] }
    if !added then s.close id
    else
      let old := s.connections.lookup fd
      let s := { s with
        registered := insert fd s.registered
        connections := s.connections.insert fd id }
      (s.releaseAll old).connectionCallback fd id greeting

/-- The message callback of `main`: what `handleData` sends, and whether it keeps the connection. -/
def messageCallback (id : Nat) (sends : List (Bytes × Written)) (kept : Bool) (s : Server) : Server :=
  match s.objects[id]?.bind fun c => c.fd.bind s.protocolHandlers.lookup with
  | none => s
  | some handler =>
      let s := s.send handler sends
      if kept then s else s.close id

/-- `handleRead`, when the read delivers bytes. -/
def handleData (fd : Nat) (sends : List (Bytes × Written)) (kept : Bool) (s : Server) : Server :=
  match s.connections.lookup fd with
  | none => s
  | some id =>
      match s.objects[id]? with
      | some c => if c.output.connected then (s.messageCallback id sends kept).release id else s
      | none => s

/-- `handleRead`, when the peer has closed the connection or the read fails. -/
def handleEnd (fd : Nat) (s : Server) : Server :=
  match s.connections.lookup fd with
  | none => s
  | some id => (s.handleConnectionClose id).release id

def handleError (fd : Nat) (s : Server) : Server :=
  (s.handleClose fd).releaseAll (s.connections.lookup fd)

/-- `handleWrite`; after a hard error the connection ends as after a failed read. -/
def handleWrite (fd : Nat) (written : Written) (s : Server) : Server :=
  match s.connections.lookup fd with
  | none => s
  | some id =>
      match s.objects[id]? with
      | none => s
      | some c =>
          let output := c.output.handleWrite written
          if c.output.connected && !output.connected then (s.handleConnectionClose id).release id
          else s.setObject id { c with output := output }

/-- An event of the server, with what the kernel and the protocol handler make of it. -/
inductive Event where
  | accept (fd : Nat) (nonBlocking added : Bool) (greeting : Bytes × Written)
  | data (fd : Nat) (sends : List (Bytes × Written)) (kept : Bool)
  | endOfFile (fd : Nat)
  | error (fd : Nat)
  | write (fd : Nat) (written : Written)

def Event.body (s : Server) : Event → Server
  | .accept fd nonBlocking added greeting => s.handleAccept fd nonBlocking added greeting
  | .data fd sends kept => s.handleData fd sends kept
  | .endOfFile fd => s.handleEnd fd
  | .error fd => s.handleError fd
  | .write fd written => s.handleWrite fd written

/-- The kernel accepts on a descriptor that is not open, and reports events of the registered ones. -/
def Event.Occurs (s : Server) : Event → Prop
  | .accept fd _ _ _ => fd ∉ s.opened
  | .data fd _ _ | .endOfFile fd | .error fd | .write fd _ => fd ∈ s.registered

def Step (s : Server) (e : Event) (s' : Server) : Prop := e.Occurs s ∧ s' = e.body s

end Server

end TinySql
