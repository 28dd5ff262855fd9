import TinySql.Lib.Run
import TinySql.Network.TcpConnection
import TinySql.Protocol.AuthenticationGate

/-!
# The clients of a server

All connections with the one storage that they share, in whatever order their bytes arrive. A
connection goes by its descriptor, which is also the id of its session.
-/

namespace TinySql

structure Client where
  buffer : Buffer
  session : Session
  events : List Event
  connected : Bool

def Client.context (c : Client) (storage : StorageEngine) : Context :=
  ⟨c.buffer, ⟨c.session, storage, c.events⟩⟩

def Client.ofContext (c : Context) (connected : Bool) : Client :=
  ⟨c.buffer, c.exec.session, c.exec.events, connected⟩

/-- The connections by descriptor, the storage, and whether the server is there to serve them. -/
structure Clients where
  client : Nat → Option Client
  storage : StorageEngine
  running : Bool

namespace Clients

def start (storage : StorageEngine) : Clients := ⟨fun _ => none, storage, true⟩

/-- `block` is what the memory holds that the input buffer gets if this chunk does not fit into it:
bytes that other connections have left behind, for all that is known. -/
inductive Event where
  | accept (fd : Nat) (challenge : Vector UInt8 20)
  | data (fd : Nat) (chunk : Bytes) (block : Nat → UInt8)
  | endOfFile (fd : Nat)

def Event.fd : Event → Nat
  | .accept fd _ | .data fd _ _ | .endOfFile fd => fd

def setClient (fd : Nat) (c : Client) (s : Clients) : Clients :=
  { s with client := Function.update s.client fd (some c) }

/-- A new connection, on a descriptor that no other one is using. -/
def accept (fd : Nat) (challenge : Vector UInt8 20) (s : Clients) : Option Clients :=
  if (s.client fd).any (·.connected) then none
  else some (s.setClient fd
    (.ofContext ⟨.empty, greeted (UInt32.ofNat fd) s.storage challenge⟩ true))

/-- The state behind a call of `handleData`. Nothing catches an exception: it ends the server, for
all of its clients. -/
def handled (fd : Nat) (s : Clients) : EStateM.Result Exn Context Bool → Clients
  | .ok kept c => { s.setClient fd (.ofContext c kept) with storage := c.exec.storage }
  | .error _ c =>
      { s.setClient fd (.ofContext c false) with storage := c.exec.storage, running := false }

/-- A connection with the bytes of a read event in its input buffer. -/
def received (chunk : Bytes) (block : Nat → UInt8) (storage : StorageEngine) (c : Client) : Context :=
  { c with buffer := c.buffer.readFromFdInto block chunk }.context storage

variable (sha1 : Bytes → Vector UInt8 20)

def data (fd : Nat) (chunk : Bytes) (block : Nat → UInt8) (s : Clients) : Option Clients :=
  match s.client fd with
  | none => none
  | some c =>
      if c.connected = true ∧ chunk ≠ [] then
        some (s.handled fd ((handleData sha1).run (received chunk block s.storage c)))
      else none

def endOfFile (fd : Nat) (s : Clients) : Option Clients :=
  match s.client fd with
  | none => none
  | some c => if c.connected then some (s.setClient fd { c with connected := false }) else none

def serve (s : Clients) : Event → Option Clients
  | .accept fd challenge => s.accept fd challenge
  | .data fd chunk block => s.data sha1 fd chunk block
  | .endOfFile fd => s.endOfFile fd

def body (s : Clients) (e : Event) : Option Clients := if s.running then s.serve sha1 e else none

def Step (s : Clients) (e : Event) (s' : Clients) : Prop := s.body sha1 e = some s'

/-! ## One step -/

variable {sha1} {s s' : Clients} {fd : Nat} {chunk : Bytes} {block : Nat → UInt8}

theorem step_iff {e : Event} : Step sha1 s e s' ↔ s.running = true ∧ s.serve sha1 e = some s' := by
  rw [Step, body]
  split
  · rename_i running
    rw [running, eq_self, true_and]
  · rename_i ended
    simp [ended]

theorem client_setClient (fd : Nat) (c : Client) (s : Clients) :
    (s.setClient fd c).client fd = some c := Function.update_self ..

theorem client_setClient_ne {other : Nat} (different : other ≠ fd) (c : Client) (s : Clients) :
    (s.setClient fd c).client other = s.client other := Function.update_of_ne different ..

theorem accept_eq_some {challenge : Vector UInt8 20} : s.accept fd challenge = some s' ↔
    (s.client fd).any (·.connected) = false ∧ s' = s.setClient fd
      (.ofContext ⟨.empty, greeted (UInt32.ofNat fd) s.storage challenge⟩ true) := by
  rw [accept]
  split
  · rename_i used
    simp [used]
  · rename_i free
    rw [Option.some_inj, eq_comm, Bool.eq_false_iff.mpr free, eq_self, true_and]

/-- What it takes to handle data: a connection, and bytes. -/
theorem data_eq_some : s.data sha1 fd chunk block = some s' ↔
    ∃ c, s.client fd = some c ∧ c.connected = true ∧ chunk ≠ [] ∧
      s' = s.handled fd ((handleData sha1).run (received chunk block s.storage c)) := by
  rw [data]
  cases here : s.client fd with
  | none => simp
  | some c =>
      dsimp only
      constructor
      · intro arrived
        split at arrived
        · rename_i live
          exact ⟨c, rfl, live.1, live.2, (Option.some.inj arrived).symm⟩
        · cases arrived
      · rintro ⟨c', same, live, more, rfl⟩
        cases same
        rw [if_pos ⟨live, more⟩]

theorem endOfFile_eq_some : s.endOfFile fd = some s' ↔
    ∃ c, s.client fd = some c ∧ c.connected = true ∧
      s' = s.setClient fd { c with connected := false } := by
  rw [endOfFile]
  cases here : s.client fd with
  | none => simp
  | some c =>
      dsimp only
      constructor
      · intro ended
        split at ended
        · rename_i live
          exact ⟨c, rfl, live, (Option.some.inj ended).symm⟩
        · cases ended
      · rintro ⟨c', same, live, rfl⟩
        cases same
        rw [if_pos live]

/-! ## What `handleData` leaves -/

open TcpConnection (messageCallback)

theorem client_handled (c : Context) : (s.handled fd ((handleData sha1).run c)).client fd =
    some (.ofContext (messageCallback sha1 c).context (messageCallback sha1 c).connected) := by
  rw [messageCallback]
  cases (handleData sha1).run c <;> exact client_setClient ..

theorem client_handled_ne {other : Nat} (different : other ≠ fd)
    (result : EStateM.Result Exn Context Bool) :
    (s.handled fd result).client other = s.client other := by
  cases result <;> exact client_setClient_ne different ..

theorem storage_handled (c : Context) : (s.handled fd ((handleData sha1).run c)).storage =
    (messageCallback sha1 c).context.exec.storage := by
  rw [messageCallback]
  cases (handleData sha1).run c <;> rfl

/-- Only what belongs to the descriptor of an event changes, apart from the storage. -/
theorem client_of_step {e : Event} (step : Step sha1 s e s') {other : Nat} (different : other ≠ e.fd) :
    s'.client other = s.client other := by
  obtain ⟨-, served⟩ := step_iff.mp step
  cases e with
  | accept fd challenge =>
      obtain ⟨-, rfl⟩ := accept_eq_some.mp served
      exact client_setClient_ne different _ _
  | data fd chunk block =>
      obtain ⟨c, -, -, -, rfl⟩ := data_eq_some.mp served
      exact client_handled_ne different _
  | endOfFile fd =>
      obtain ⟨c, -, -, rfl⟩ := endOfFile_eq_some.mp served
      exact client_setClient_ne different _ _

/-! ## Bytes that fit into the input buffer -/

theorem received_of_fits {c : Client} (fits : chunk.length ≤ c.buffer.writableBytes)
    (block : Nat → UInt8) (storage : StorageEngine) : received chunk block storage c =
      { c with buffer := c.buffer.readFromFd chunk }.context storage := by
  rw [received, Buffer.readFromFdInto_of_fits fits]

/-- The read event of a single connection, on the storage as the others have left it. -/
theorem data_handleRead (fits : ∀ c, s.client fd = some c → chunk.length ≤ c.buffer.writableBytes)
    (step : s.data sha1 fd chunk block = some s') : ∃ c after, s.client fd = some c ∧
      after = TcpConnection.handleRead sha1 ⟨c.context s.storage, c.connected⟩ chunk ∧
      s'.client fd = some (.ofContext after.context after.connected) ∧
      s'.storage = after.context.exec.storage := by
  obtain ⟨c, here, live, some, rfl⟩ := data_eq_some.mp step
  have read : TcpConnection.handleRead sha1 ⟨c.context s.storage, c.connected⟩ chunk =
      messageCallback sha1 ({ c with buffer := c.buffer.readFromFd chunk }.context s.storage) := by
    simp [TcpConnection.handleRead, live, some, Client.context]
  refine ⟨c, _, here, rfl, ?_⟩
  rw [client_handled, storage_handled, received_of_fits (fits c here), read]
  exact ⟨rfl, rfl⟩

end Clients

end TinySql
