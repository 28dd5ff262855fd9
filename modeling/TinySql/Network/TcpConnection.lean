import TinySql.Protocol.ProtocolHandler

/-!
# `TcpConnection`

The input side of a connection: what one read event does to its input buffer, and through the
message callback of the server to the `ProtocolHandler` of the connection.
-/

namespace TinySql

/-- A connection whose protocol handler has sent the greeting. -/
structure TcpConnection where
  context : Context
  connected : Bool

namespace TcpConnection

variable (sha1 : Bytes → Vector UInt8 20)

/-- The message callback of `main`. Nothing catches an exception: it ends the server, and with it the
connection. -/
def messageCallback (c : Context) : TcpConnection :=
  match (handleData sha1).run c with
  | .ok kept c => ⟨c, kept⟩
  | .error _ c => ⟨c, false⟩

/-- `handleRead`, when the read has delivered these bytes; there are none when the peer has closed
the connection. -/
def handleRead (conn : TcpConnection) (delivered : Bytes) : TcpConnection :=
  if !conn.connected then conn
  else if delivered = [] then { conn with connected := false }
  else messageCallback sha1 ⟨conn.context.buffer.readFromFd delivered, conn.context.exec⟩

def serve (chunks : List Bytes) (conn : TcpConnection) : TcpConnection :=
  chunks.foldl (handleRead sha1) conn

variable {sha1}

theorem serve_closed {conn : TcpConnection} (closed : conn.connected = false)
    (chunks : List Bytes) : serve sha1 chunks conn = conn := by
  induction chunks with
  | nil => rfl
  | cons chunk chunks ih =>
      have first : handleRead sha1 conn chunk = conn := by
        simp [handleRead, closed]
      rw [serve, List.foldl_cons, first]
      exact ih

theorem serve_cons {conn : TcpConnection} {chunk : Bytes} (opened : conn.connected = true)
    (some : chunk ≠ []) (chunks : List Bytes) : serve sha1 (chunk :: chunks) conn =
      serve sha1 chunks
        (messageCallback sha1 ⟨conn.context.buffer.readFromFd chunk, conn.context.exec⟩) := by
  have first : handleRead sha1 conn chunk =
      messageCallback sha1 ⟨conn.context.buffer.readFromFd chunk, conn.context.exec⟩ := by
    simp [handleRead, opened, some]
  rw [serve, List.foldl_cons, first, serve]

end TcpConnection

/-! ## The input buffer -/

namespace Buffer

/-- A buffer that only `readFromFd` has filled, with this much room left. All its bytes are behind
the end of the vector. -/
structure Received (room : Nat) (b : Buffer) : Prop where
  outside : b.data = []
  stored : b.spare.length = b.writeIndex
  capacity : b.capacity = b.writeIndex + room
  ordered : b.readIndex ≤ b.writeIndex

variable {room : Nat} {b : Buffer}

theorem empty_received : Received 4096 empty := ⟨rfl, rfl, rfl, Nat.le_refl 0⟩

theorem Received.memory (received : Received room b) : b.memory b.writeIndex = b.spare := by
  rw [Buffer.memory, received.outside, List.nil_append, List.rightpad, received.stored,
    Nat.sub_self, List.replicate_zero, List.append_nil]

theorem Received.readable (received : Received room b) : b.readable = b.spare.drop b.readIndex := by
  rw [Buffer.readable, received.memory, readableBytes, ← received.stored, ← List.length_drop,
    List.take_length]

theorem Received.readFromFd (received : Received room b) {delivered : Bytes}
    (fits : delivered.length ≤ room) :
    Received (room - delivered.length) (b.readFromFd delivered) ∧
      (b.readFromFd delivered).readable = b.readable ++ delivered := by
  have writable : b.writableBytes = room := by
    rw [writableBytes, received.capacity]
    omega
  have run : b.readFromFd delivered = { b with
      spare := b.spare ++ delivered
      writeIndex := b.writeIndex + delivered.length } := by
    have whole : b.spare.take b.writeIndex = b.spare := List.take_of_length_le received.stored.le
    have behind : b.spare.drop (b.writeIndex + delivered.length) = [] :=
      List.drop_eq_nil_of_le (by rw [received.stored]; omega)
    simp only [Buffer.readFromFd, writable, received.memory, List.take_of_length_le fits, whole, behind,
      List.append_nil, received.outside, List.length_nil, List.take_zero, List.drop_zero, if_pos fits]
  have after : Received (room - delivered.length) (b.readFromFd delivered) := by
    rw [run]
    refine ⟨received.outside, ?_, ?_, ?_⟩
    · simp [received.stored]
    · have := received.capacity
      dsimp only
      omega
    · have := received.ordered
      dsimp only
      omega
  refine ⟨after, ?_⟩
  rw [after.readable, received.readable, run]
  have inside : b.readIndex ≤ b.spare.length := received.ordered.trans received.stored.ge
  exact List.drop_append_of_le_length inside

/-- What fits is not met by the memory of another allocation. -/
theorem readFromFdInto_of_fits {delivered : Bytes} (fits : delivered.length ≤ b.writableBytes)
    (block : Nat → UInt8) : b.readFromFdInto block delivered = b.readFromFd delivered := by
  have same : (b.readFromFd delivered).capacity = b.capacity := by
    rw [Buffer.readFromFd, if_pos fits]
  rw [readFromFdInto, if_neg (by rw [same]; exact Nat.lt_irrefl _)]

theorem Received.advance (received : Received room b) {n : Nat} (inside : n ≤ b.readable.length) :
    Received room (b.advance n) := by
  refine ⟨received.outside, received.stored, received.capacity, ?_⟩
  rw [readable_length, readableBytes] at inside
  have := received.ordered
  simp only [Buffer.advance]
  omega

end Buffer

end TinySql
