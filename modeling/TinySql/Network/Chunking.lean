import TinySql.Network.PacketStream

/-!
# Packets in chunks

A stream of packets may reach the server in any chunks. One read event hands one packet at most to
the `ProtocolHandler`, so that the chunks have an effect of their own unless they come in time.
-/

namespace TinySql
open Buffer TcpConnection

/-- The chunks come in time for the packets: while the connection lasts, each of them fits into the
`room` of the input buffer, a handler that takes all that has arrived finds its packet alone, each
packet is taken as a whole, and there is a read event for each. `pending` has arrived before. -/
inductive Timely : Phase → Nat → List ClientPacket → Bytes → List Bytes → Prop where
  | done {phase : Phase} {room : Nat} : Timely phase room [] [] []
  | wait {phase : Phase} {room : Nat} {p : ClientPacket} {packets : List ClientPacket}
      {pending chunk : Bytes} {chunks : List Bytes} (fits : chunk.length ≤ room)
      (short : (pending ++ chunk).length < p.bytes.length)
      (later : Timely phase (room - chunk.length) (p :: packets) (pending ++ chunk) chunks) :
      Timely phase room (p :: packets) pending (chunk :: chunks)
  | handle {phase : Phase} {room : Nat} {p : ClientPacket} {packets : List ClientPacket}
      {pending chunk : Bytes} {chunks : List Bytes} (fits : chunk.length ≤ room)
      (whole : p.bytes.length ≤ (pending ++ chunk).length)
      (alone : phase.TakesAll p.payload → (pending ++ chunk).length = p.bytes.length)
      (consumes : phase.Consumes p.payload)
      (later : Timely .commands (room - chunk.length) packets
        ((pending ++ chunk).drop p.bytes.length) chunks) :
      Timely phase room (p :: packets) pending (chunk :: chunks)
  | last {phase : Phase} {room : Nat} {p : ClientPacket} {packets : List ClientPacket}
      {pending chunk : Bytes} {chunks : List Bytes} (fits : chunk.length ≤ room)
      (whole : p.bytes.length ≤ (pending ++ chunk).length)
      (alone : phase.TakesAll p.payload → (pending ++ chunk).length = p.bytes.length)
      (ends : phase.Ends p.payload ∨ packets = [] ∧ chunks = []) :
      Timely phase room (p :: packets) pending (chunk :: chunks)

def stream (packets : List ClientPacket) : Bytes := (packets.map (·.bytes)).flatten

variable {sha1 : Bytes → Vector UInt8 20}

/-- Two connections show the same: the session, the storage and the responses. -/
def Same (c c' : TcpConnection) : Prop :=
  c.context.exec = c'.context.exec ∧ c.connected = c'.connected

/-- The connection `conn`, in which `pending` has arrived, has come as far as `alone` has, which gets
each packet in a chunk of its own. -/
structure InStep (sha1 : Bytes → Vector UInt8 20) (phase : Phase) (room : Nat)
    (packets : List ClientPacket) (pending : Bytes) (conn alone : TcpConnection) : Prop where
  same : Same conn alone
  connected : conn.connected = true
  fits : ∀ p ∈ packets.head?, phase.Fits sha1 p.payload conn.context.exec.session
  received : Received room conn.context.buffer
  shown : conn.context.buffer.readable = pending
  receivedAlone : Received (room + pending.length) alone.context.buffer
  shownAlone : alone.context.buffer.readable = []

theorem messageCallback_wait {b : Buffer} {e : Exec} {p : ClientPacket} {more : Bytes}
    (arrived : p.bytes = b.readable ++ more) (missing : more ≠ []) :
    messageCallback sha1 ⟨b, e⟩ = ⟨⟨b, e⟩, true⟩ := by
  have short : ¬ (4 ≤ b.readableBytes ∧ 4 + payloadLength b.readable ≤ b.readableBytes) := by
    rintro ⟨header, whole⟩
    have told : payloadLength b.readable = p.payload.length := by
      have start : p.bytes.take 3 = b.readable.take 3 := by
        rw [arrived, List.take_append_of_le_length (by rw [readable_length]; omega)]
      rw [← payloadLength_packet p.sequenceId p.payload [] p.short, List.append_nil, payloadLength,
        payloadLength, ← start, ClientPacket.bytes]
    have length := congrArg List.length arrived
    rw [ClientPacket.bytes, length_packet, List.length_append, readable_length] at length
    have := List.length_pos_iff.mpr missing
    omega
  exact messageCallback_short short

section Steps
variable {phase : Phase} {room : Nat} {p : ClientPacket} {packets : List ClientPacket}
variable {pending chunk : Bytes} {chunks : List Bytes} {conn alone : TcpConnection}

theorem arrived_whole (split : pending ++ (chunk :: chunks).flatten = stream (p :: packets))
    (whole : p.bytes.length ≤ (pending ++ chunk).length) :
    pending ++ chunk = p.bytes ++ (pending ++ chunk).drop p.bytes.length ∧
      (pending ++ chunk).drop p.bytes.length ++ chunks.flatten = stream packets := by
  rw [List.flatten_cons, ← List.append_assoc] at split
  have start : (pending ++ chunk).take p.bytes.length = p.bytes := by
    have taken := congrArg (List.take p.bytes.length) split
    rw [List.take_append_of_le_length whole] at taken
    rw [taken, stream, List.map_cons, List.flatten_cons, List.take_left]
  have same : pending ++ chunk = p.bytes ++ (pending ++ chunk).drop p.bytes.length := by
    conv_lhs => rw [← List.take_append_drop p.bytes.length (pending ++ chunk), start]
  refine ⟨same, ?_⟩
  rw [same, List.append_assoc, stream, List.map_cons, List.flatten_cons] at split
  exact List.append_cancel_left split

theorem arrived_short (split : pending ++ (chunk :: chunks).flatten = stream (p :: packets))
    (short : (pending ++ chunk).length < p.bytes.length) :
    ∃ more, more ≠ [] ∧ p.bytes = (pending ++ chunk) ++ more := by
  rw [List.flatten_cons, ← List.append_assoc] at split
  have start : p.bytes.take (pending ++ chunk).length = pending ++ chunk := by
    have taken := congrArg (List.take (pending ++ chunk).length) split
    rw [List.take_left, stream, List.map_cons, List.flatten_cons,
      List.take_append_of_le_length short.le] at taken
    exact taken.symm
  refine ⟨p.bytes.drop (pending ++ chunk).length, ?_, ?_⟩
  · intro empty
    have := List.drop_eq_nil_iff.mp empty
    omega
  · conv_lhs => rw [← List.take_append_drop (pending ++ chunk).length p.bytes, start]

def next (sha1 : Bytes → Vector UInt8 20) (conn : TcpConnection) (chunk : Bytes) : TcpConnection :=
  messageCallback sha1 ⟨conn.context.buffer.readFromFd chunk, conn.context.exec⟩

theorem InStep.wait (inStep : InStep sha1 phase room (p :: packets) pending conn alone)
    (fits : chunk.length ≤ room) {more : Bytes} (missing : more ≠ [])
    (arrived : p.bytes = (pending ++ chunk) ++ more) :
    InStep sha1 phase (room - chunk.length) (p :: packets) (pending ++ chunk) (next sha1 conn chunk)
      alone := by
  obtain ⟨received, shown⟩ := inStep.received.readFromFd fits
  rw [inStep.shown] at shown
  have waits : next sha1 conn chunk =
      ⟨⟨conn.context.buffer.readFromFd chunk, conn.context.exec⟩, true⟩ :=
    messageCallback_wait (shown ▸ arrived) missing
  rw [waits]
  refine ⟨⟨inStep.same.1, ?_⟩, rfl, inStep.fits, received, shown, ?_, inStep.shownAlone⟩
  · rw [← inStep.same.2, inStep.connected]
  · have room : room - chunk.length + (pending ++ chunk).length = room + pending.length := by
      rw [List.length_append]
      omega
    rw [room]
    exact inStep.receivedAlone

theorem InStep.alike {tail : Bytes}
    (inStep : InStep sha1 phase room (p :: packets) pending conn alone)
    (fits : chunk.length ≤ room) (arrived : pending ++ chunk = p.bytes ++ tail)
    (rest : phase.TakesAll p.payload → tail = []) :
    Alike phase p (conn.context.buffer.readFromFd chunk) (alone.context.buffer.readFromFd p.bytes)
      (next sha1 conn chunk) (next sha1 alone p.bytes) := by
  have shown := (inStep.received.readFromFd fits).2
  rw [inStep.shown, arrived] at shown
  have length := congrArg List.length arrived
  simp only [List.length_append] at length
  have only := (inStep.receivedAlone.readFromFd
    (show p.bytes.length ≤ room + pending.length by omega)).2
  rw [inStep.shownAlone, List.nil_append] at only
  rw [next, next, ← inStep.same.1]
  exact TinySql.alike (inStep.fits p rfl) shown only rest

theorem InStep.handle {tail : Bytes}
    (inStep : InStep sha1 phase room (p :: packets) pending conn alone)
    (fits : chunk.length ≤ room) (arrived : pending ++ chunk = p.bytes ++ tail)
    (rest : phase.TakesAll p.payload → tail = []) (consumes : phase.Consumes p.payload)
    (kept : (next sha1 conn chunk).connected = true) :
    InStep sha1 .commands (room - chunk.length) packets tail (next sha1 conn chunk)
      (next sha1 alone p.bytes) := by
  have same := inStep.alike fits arrived rest
  obtain ⟨here, there⟩ := same.consumed kept consumes
  obtain ⟨received, shown⟩ := inStep.received.readFromFd fits
  rw [inStep.shown, arrived] at shown
  have length := congrArg List.length arrived
  simp only [List.length_append] at length
  obtain ⟨received', shown'⟩ := inStep.receivedAlone.readFromFd
    (show p.bytes.length ≤ room + pending.length by omega)
  rw [inStep.shownAlone, List.nil_append] at shown'
  refine ⟨⟨same.exec, same.connected⟩, kept, fun _ _ => same.authenticated kept, ?_, ?_, ?_, ?_⟩
  · rw [here]
    exact received.advance (by rw [shown, List.length_append]; omega)
  · rw [here, readable_advance, shown, List.drop_left]
  · have room : room - chunk.length + tail.length = room + pending.length - p.bytes.length := by
      omega
    rw [there, room]
    exact received'.advance (by rw [shown'])
  · rw [there, readable_advance, shown', List.drop_length]

end Steps

/-- Chunks that come in time do what the packets do one by one. -/
theorem Timely.serve {phase : Phase} {room : Nat} {packets : List ClientPacket} {pending : Bytes}
    {chunks : List Bytes} (timely : Timely phase room packets pending chunks)
    {conn alone : TcpConnection} (inStep : InStep sha1 phase room packets pending conn alone)
    (some : ∀ chunk ∈ chunks, chunk ≠ []) (split : pending ++ chunks.flatten = stream packets) :
    Same (serve sha1 chunks conn) (serve sha1 (packets.map (·.bytes)) alone) := by
  have opened : alone.connected = true := inStep.same.2.symm.trans inStep.connected
  have packet (p : ClientPacket) : p.bytes ≠ [] := by
    intro empty
    have length := congrArg List.length empty
    rw [ClientPacket.bytes, length_packet, List.length_nil] at length
    omega
  induction timely generalizing conn alone with
  | done => exact inStep.same
  | @wait phase room p packets pending chunk chunks fits short later ih =>
      obtain ⟨nonempty, others⟩ := List.forall_mem_cons.mp some
      obtain ⟨more, missing, arrived⟩ := arrived_short split short
      rw [serve_cons inStep.connected nonempty]
      apply ih (inStep.wait fits missing arrived) others _ opened
      rw [← split, List.flatten_cons, List.append_assoc]
  | @handle phase room p packets pending chunk chunks fits whole only consumes later ih =>
      obtain ⟨nonempty, others⟩ := List.forall_mem_cons.mp some
      obtain ⟨arrived, split'⟩ := arrived_whole split whole
      have rest (all : phase.TakesAll p.payload) :
          (pending ++ chunk).drop p.bytes.length = [] :=
        List.drop_eq_nil_of_le (only all).le
      have same := inStep.alike fits arrived rest
      rw [serve_cons inStep.connected nonempty, List.map_cons, serve_cons opened (packet p)]
      cases kept : (next sha1 conn chunk).connected with
      | true =>
          have ready := inStep.handle fits arrived rest consumes kept
          exact ih ready others split' (same.connected.symm.trans kept)
      | false =>
          rw [← next, ← next, serve_closed kept, serve_closed (same.connected.symm.trans kept)]
          exact ⟨same.exec, same.connected⟩
  | @last phase room p packets pending chunk chunks fits whole only ends =>
      obtain ⟨nonempty, others⟩ := List.forall_mem_cons.mp some
      obtain ⟨arrived, split'⟩ := arrived_whole split whole
      have rest (all : phase.TakesAll p.payload) :
          (pending ++ chunk).drop p.bytes.length = [] :=
        List.drop_eq_nil_of_le (only all).le
      have same := inStep.alike fits arrived rest
      rw [serve_cons inStep.connected nonempty, List.map_cons, serve_cons opened (packet p),
        ← next, ← next]
      rcases ends with ends | ⟨rfl, rfl⟩
      · have closed := same.ended ends
        rw [serve_closed closed, serve_closed (same.connected.symm.trans closed)]
        exact ⟨same.exec, same.connected⟩
      · exact ⟨same.exec, same.connected⟩

/-! ## A connection from its greeting on -/

def newTcpConnection (connectionId : UInt32) (storage : StorageEngine)
    (challenge : Vector UInt8 20) : TcpConnection :=
  ⟨⟨Buffer.empty, greeted connectionId storage challenge⟩, true⟩

/-- A handshake response whose fields fill its packet, and commands: chunks that come in time leave
the session, the storage and the responses that the packets leave one by one. -/
theorem chunks_in_time (sha1 : Bytes → Vector UInt8 20) (connectionId : UInt32)
    (storage : StorageEngine) (challenge : Vector UInt8 20) {response : ClientPacket}
    {r : HandshakeResponse41Packet} (valid : (handshakeFields {}).run response.payload = some (r, []))
    {commands : List ClientPacket} {chunks : List Bytes} (some : ∀ chunk ∈ chunks, chunk ≠ [])
    (split : chunks.flatten = stream (response :: commands))
    (timely : Timely (.login (Authenticator.authenticate sha1 r.username r.authResponse challenge))
      4096 (response :: commands) [] chunks) :
    Same (serve sha1 chunks (newTcpConnection connectionId storage challenge))
      (serve sha1 ((response :: commands).map (·.bytes))
        (newTcpConnection connectionId storage challenge)) := by
  apply timely.serve _ some split
  refine ⟨⟨rfl, rfl⟩, rfl, ?_, empty_received, rfl, empty_received, rfl⟩
  rintro p ⟨⟩
  exact ⟨rfl, r, valid, rfl⟩

def rootResponse : ClientPacket where
  sequenceId := 1
  payload := [0, 0x82, 0, 0] ++ [0, 0, 0, 1] ++ [45] ++ List.replicate 23 0 ++ ascii "root" ++ [0, 0]
  short := by decide

def ping : ClientPacket := ⟨0, [0x0e], by decide⟩

theorem ping_in_time : Same
    (serve (fun _ => .replicate 20 0) [rootResponse.bytes ++ ping.bytes.take 4, ping.bytes.drop 4]
      (newTcpConnection 1 .initial (.replicate 20 0)))
    (serve (fun _ => .replicate 20 0) [rootResponse.bytes, ping.bytes]
      (newTcpConnection 1 .initial (.replicate 20 0))) := by
  have valid : (handshakeFields {}).run rootResponse.payload =
      some (⟨0x8200, 0x1000000, 45, ascii "root", [], [], []⟩, []) := by decide +kernel
  have some : ∀ chunk ∈ [rootResponse.bytes ++ ping.bytes.take 4, ping.bytes.drop 4],
      chunk ≠ [] := by decide
  have split : [rootResponse.bytes ++ ping.bytes.take 4, ping.bytes.drop 4].flatten =
      stream [rootResponse, ping] := by decide
  apply chunks_in_time _ 1 .initial (.replicate 20 0) valid some split
  apply Timely.handle
  · decide
  · decide
  · exact False.elim
  · trivial
  · apply Timely.handle
    · decide
    · decide
    · rintro ⟨cmdByte, head, all⟩
      obtain rfl := Option.some.inj head
      cases all
    · exact fun _ => rfl
    · exact Timely.done

/-- A COM_PING in the chunk of the handshake response is not answered. -/
theorem ping_not_answered : ¬ ∀ (sha1 : Bytes → Vector UInt8 20) (connectionId : UInt32)
    (storage : StorageEngine) (challenge : Vector UInt8 20) (response : ClientPacket)
    (r : HandshakeResponse41Packet) (commands : List ClientPacket) (chunks : List Bytes),
    (handshakeFields {}).run response.payload = some (r, []) → (∀ chunk ∈ chunks, chunk ≠ []) →
    chunks.flatten = stream (response :: commands) →
    Same (serve sha1 chunks (newTcpConnection connectionId storage challenge))
      (serve sha1 ((response :: commands).map (·.bytes))
        (newTcpConnection connectionId storage challenge)) := by
  intro all
  have valid : (handshakeFields {}).run rootResponse.payload =
      some (⟨0x8200, 0x1000000, 45, ascii "root", [], [], []⟩, []) := by decide +kernel
  have same := all (fun _ => .replicate 20 0) 1 .initial (.replicate 20 0) rootResponse _ [ping]
    [rootResponse.bytes ++ ping.bytes] valid (by decide) (by decide)
  exact absurd (congrArg (·.events.length) same.1) (by decide +kernel)

end TinySql
