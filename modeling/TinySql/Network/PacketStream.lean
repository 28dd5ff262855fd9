import TinySql.Network.TcpConnection
import TinySql.Protocol.Exceptions

/-!
# One packet of a stream

What a read event does when a packet has arrived, whatever has arrived behind it.
-/

namespace TinySql
open Buffer Frame MySQLCommand TcpConnection Wire TinySql.Parser

structure ClientPacket where
  sequenceId : UInt8
  payload : Bytes
  short : payload.length < 2 ^ 24

def ClientPacket.bytes (p : ClientPacket) : Bytes := packet p.sequenceId p.payload

/-- What the connection waits for: the handshake response, which will be accepted or not, or a
command. -/
inductive Phase where
  | login (accepted : Bool)
  | commands

namespace Phase

/-- The handler takes all that has arrived. -/
def TakesAll : Phase → Bytes → Prop
  | .login _, _ => False
  | .commands, payload => ∃ cmdByte ∈ payload.head?, takesAll cmdByte = true

/-- The handler leaves nothing of the packet in the buffer. -/
def Consumes : Phase → Bytes → Prop
  | .login _, _ => True
  | .commands, payload => payload.head? = some COM_PING → payload = [COM_PING]

/-- The connection ends with the packet. -/
def Ends : Phase → Bytes → Prop
  | .login accepted, _ => accepted = false
  | .commands, [] => True
  | .commands, cmdByte :: text =>
      if cmdByte = COM_QUERY then LimitOverflows (statementTokens (trim text))
      else cmdByte ≠ COM_PING ∧ cmdByte ≠ COM_INIT_DB

/-- The session is in this phase, and a handshake response is valid: its fields fill the packet. -/
def Fits (sha1 : Bytes → Vector UInt8 20) (payload : Bytes) (s : Session) : Phase → Prop
  | .login accepted => s.state = .handshakeSent ∧ ∃ r, (handshakeFields {}).run payload = some (r, []) ∧
      Authenticator.authenticate sha1 r.username r.authResponse s.authPluginData = accepted
  | .commands => s.state = .authenticated

end Phase

variable {sha1 : Bytes → Vector UInt8 20}

/-! ## Commands -/

/-- What the packet of a command makes the dispatcher do. -/
def packetBody (payload tail : Bytes) : ExecM Bool :=
  match payload with
  | [] => pure false
  | cmdByte :: rest => commandBody cmdByte (rest ++ tail)

def packetUse (payload tail : Bytes) : Nat :=
  match payload with
  | [] => 4
  | cmdByte :: rest => 5 + taken cmdByte (rest ++ tail).length

section Command
variable {b : Buffer} {p : ClientPacket} {tail : Bytes} {e : Exec}

theorem dispatch_packet (shown : b.readable = p.bytes ++ tail) (e : Exec) :
    dispatch.run ⟨b, e⟩ = (onExec (packetBody p.payload tail)).run
      ⟨b.advance (packetUse p.payload tail), e.received p.sequenceId⟩ := by
  obtain ⟨sequenceId, payload, short⟩ := p
  cases payload with
  | nil =>
      have length : b.readableBytes = 4 + tail.length := by
        rw [← readable_length, shown, List.length_append, ClientPacket.bytes, length_packet]
        rfl
      have first : (b.advance 3).readable = sequenceId :: tail := by
        rw [readable_advance, shown, ClientPacket.bytes, drop_packet, List.nil_append]
      have empty : payloadLength b.readable = 0 := by
        rw [shown, ClientPacket.bytes, payloadLength_packet _ _ _ short, List.length_nil]
      have header : ¬ b.readableBytes < 4 := by omega
      have none : UInt32.ofNat 0 < 1 := by decide
      simp only [dispatch, EStateM.run_bind, EStateM.run_get, if_neg header, onBuffer_run,
        readThreeBytes_run (show 3 ≤ b.readableBytes by omega), readUint8_run first, onExec_run,
        modifySession_run, advance_advance, Nat.reduceAdd, empty, if_pos none]
      rfl
  | cons cmdByte rest => exact dispatch_run short shown e

theorem whole_packet (shown : b.readable = p.bytes ++ tail) :
    4 ≤ b.readableBytes ∧ 4 + payloadLength b.readable ≤ b.readableBytes := by
  have length : b.readableBytes = 4 + p.payload.length + tail.length := by
    rw [← readable_length, shown, List.length_append, ClientPacket.bytes, length_packet]
  have told : payloadLength b.readable = p.payload.length := by
    rw [shown, ClientPacket.bytes, payloadLength_packet _ _ _ p.short]
  omega

theorem exists_clientPacket (whole : 4 + payloadLength b.readable ≤ b.readableBytes) :
    ∃ (p : ClientPacket) (tail : Bytes), b.readable = p.bytes ++ tail := by
  rw [← readable_length] at whole
  obtain ⟨sequenceId, payload, tail, shown, length⟩ := exists_packet whole
  exact ⟨⟨sequenceId, payload, length.trans_lt (payloadLength_lt _)⟩, tail, shown⟩

/-- Nothing happens until a packet is whole. -/
theorem messageCallback_short
    (short : ¬ (4 ≤ b.readableBytes ∧ 4 + payloadLength b.readable ≤ b.readableBytes)) :
    messageCallback sha1 ⟨b, e⟩ = ⟨⟨b, e⟩, true⟩ := by
  have run : (handleData sha1).run ⟨b, e⟩ = .ok true ⟨b, e⟩ := by
    rw [handleData_run, if_neg short]
  rw [messageCallback, run]

/-- The session and the storage behind a command, and whether the connection is kept. -/
def settle : EStateM.Result Exn Exec Bool → Exec × Bool
  | .ok kept e => (e, if e.session.state = .closing then false else kept)
  | .error _ e => (e, false)

/-- The session as the dispatcher is called, with the sequence id that it reads first. -/
def Exec.dispatched (p : ClientPacket) (e : Exec) : Exec :=
  Exec.received p.sequenceId { e with events := e.events ++ [.dispatch] }

theorem messageCallback_command (authenticated : e.session.isAuthenticated = true)
    (shown : b.readable = p.bytes ++ tail) : messageCallback sha1 ⟨b, e⟩ =
      let result := settle ((packetBody p.payload tail).run (e.dispatched p))
      ⟨⟨b.advance (packetUse p.payload tail), result.1⟩, result.2⟩ := by
  have command : (handleData sha1).run ⟨b, e⟩ = handleCommand.run ⟨b, e⟩ := by
    rw [handleData_run, if_pos (whole_packet shown)]
    cases state : e.session.state <;> simp_all [Session.isAuthenticated]
  have run : (handleData sha1).run ⟨b, e⟩ = (do
      let result ← dispatch
      if (← get).exec.session.state = .closing then return false
      return result : HandlerM Bool).run ⟨b, { e with events := e.events ++ [.dispatch] }⟩ := by
    rw [command]
    simp only [handleCommand, EStateM.run_bind, EStateM.run_get, authenticated]
    rfl
  rw [messageCallback, run, EStateM.run_bind, dispatch_packet shown, onExec_run]
  dsimp only
  rw [← Exec.dispatched]
  cases (packetBody p.payload tail).run (e.dispatched p) with
  | error err e' => rfl
  | ok kept e' =>
      dsimp only [settle]
      rw [run_get_bind]
      dsimp only
      by_cases closing : e'.session.state = .closing
      · rw [if_pos closing, if_pos closing]
        rfl
      · rw [if_neg closing, if_neg closing]
        rfl

theorem commandBody_quiet (cmdByte : UInt8) (text : Bytes) : Quiet (commandBody cmdByte text) := by
  unfold commandBody
  split
  · exact sendOk_quiet _
  · exact handleQuit_quiet
  · exact handleQuery_quiet text
  · exact handleInitDb_quiet text
  · exact (sendErr_quiet _).bind fun _ => respects_pure _

theorem settle_exec (result : EStateM.Result Exn Exec Bool) : (settle result).1 = final result := by
  cases result <;> rfl

/-- A command that keeps the connection keeps the state of its session. -/
theorem settle_state {m : ExecM Bool} (quiet : Quiet m) (kept : (settle (m.run e)).2 = true) :
    (settle (m.run e)).1.session.state = e.session.state := by
  have step := quiet e
  cases ran : m.run e with
  | error err e' =>
      rw [ran] at kept
      cases kept
  | ok result e' =>
      rw [ran] at kept step
      rcases step.state with same | closing
      · exact same
      · have ends : (settle (.ok result e')).2 = false := if_pos closing
        rw [ends] at kept
        cases kept

theorem settle_kept {cmdByte : UInt8} {text : Bytes}
    (kept : (settle ((commandBody cmdByte text).run e)).2 = true) :
    cmdByte = COM_PING ∨ takesAll cmdByte = true := by
  unfold commandBody at kept
  split at kept
  · exact .inl rfl
  · cases kept
  · exact .inr rfl
  · exact .inr rfl
  · obtain ⟨sent, e', ran⟩ := sendErr_total unknownCommand e
    rw [run_bind_ok ran] at kept
    have never : (settle ((pure false : ExecM Bool).run e')).2 = false := ite_self false
    rw [never] at kept
    cases kept

theorem settle_overflow {text : Bytes} (overflow : LimitOverflows (statementTokens (trim text))) :
    (settle ((commandBody COM_QUERY text).run e)).2 = false := by
  have throws : parseQuery (trim text) = .error (.outOfRange (ascii "stoi")) := by
    rcases parseQuery_cases (trim text) with ⟨-, throws⟩ | ⟨fits, -⟩
    · exact throws
    · exact absurd overflow fits
  change (settle ((handleQuery text).run e)).2 = false
  unfold handleQuery
  rw [throws]
  rfl

end Command

/-! ## The handshake response -/

section Login
variable {b : Buffer} {p : ClientPacket} {tail : Bytes} {e : Exec} {r : HandshakeResponse41Packet}

theorem decode_packet (shown : b.readable = p.bytes ++ tail)
    (fields : (handshakeFields {}).run p.payload = some (r, [])) :
    (HandshakeResponse41Packet.decode {}).run b = .ok (some r) (b.advance p.bytes.length) := by
  obtain ⟨header, whole⟩ := whole_packet shown
  obtain ⟨bytes, same, reads⟩ := handshakeFields_local {} _ _ _ fields
  obtain rfl : p.payload = bytes := by rw [same, List.append_nil]
  have behind : (b.advance 4).readable = p.payload ++ tail := by
    rw [← advance_advance b 3 1, readable_advance, readable_advance, shown, ClientPacket.bytes,
      drop_packet]
    rfl
  have implements := (HandshakeResponse41Packet.readFields_implements {}).map some
  have read := implements.run behind (reads.map some)
  rw [HandshakeResponse41Packet.decode_run {} header, if_neg (Nat.not_lt.mpr whole), read,
    advance_advance, ClientPacket.bytes, length_packet]

theorem messageCallback_login (state : e.session.state = .handshakeSent)
    (fields : (handshakeFields {}).run p.payload = some (r, [])) {kept : Bool} {e' : Exec}
    (finish : (finishAuthentication sha1 r).run e = .ok kept e')
    (shown : b.readable = p.bytes ++ tail) :
    messageCallback sha1 ⟨b, e⟩ = ⟨⟨b.advance p.bytes.length, e'⟩, kept⟩ := by
  have run : (handleData sha1).run ⟨b, e⟩ = .ok kept ⟨b.advance p.bytes.length, e'⟩ := by
    rw [handleData_run, if_pos (whole_packet shown), state]
    simp [handleAuthentication, decode_packet shown fields, finish]
  rw [messageCallback, run]

end Login

/-! ## Packets -/

structure Alike (phase : Phase) (p : ClientPacket) (b alone : Buffer) (c c' : TcpConnection) :
    Prop where
  exec : c.context.exec = c'.context.exec
  connected : c.connected = c'.connected
  authenticated : c.connected = true → c.context.exec.session.state = .authenticated
  consumed : c.connected = true → phase.Consumes p.payload →
    c.context.buffer = b.advance p.bytes.length ∧ c'.context.buffer = alone.advance p.bytes.length
  ended : phase.Ends p.payload → c.connected = false

theorem packetBody_alone {payload tail : Bytes}
    (rest : Phase.commands.TakesAll payload → tail = []) :
    packetBody payload tail = packetBody payload [] := by
  cases payload with
  | nil => rfl
  | cons cmdByte text =>
      cases kind : takesAll cmdByte with
      | true => rw [rest ⟨cmdByte, rfl, kind⟩]
      | false => exact commandBody_congr kind _ _

theorem packetBody_quiet (payload tail : Bytes) : Quiet (packetBody payload tail) := by
  cases payload with
  | nil => exact respects_pure false
  | cons cmdByte rest => exact commandBody_quiet cmdByte _

section Packet
variable {b alone : Buffer} {p : ClientPacket} {tail : Bytes} {e : Exec}

theorem packetUse_eq {other : Bytes}
    (kept : (settle ((packetBody p.payload other).run e)).2 = true)
    (rest : Phase.commands.TakesAll p.payload → tail = [])
    (consumes : Phase.commands.Consumes p.payload) :
    packetUse p.payload tail = p.bytes.length := by
  rw [ClientPacket.bytes, length_packet]
  cases shape : p.payload with
  | nil =>
      rw [shape] at kept
      have never : (settle ((packetBody [] other).run e)).2 = false := ite_self false
      rw [never] at kept
      cases kept
  | cons cmdByte text =>
      rw [shape] at kept rest consumes
      cases settle_kept kept with
      | inl ping =>
          obtain ⟨rfl, rfl⟩ := List.cons.inj (consumes (congrArg some ping))
          rfl
      | inr all =>
          rw [rest ⟨cmdByte, rfl, all⟩]
          simp only [packetUse, taken, all, if_true, List.append_nil, List.length_cons]
          omega

theorem settle_ends (rest : Phase.commands.TakesAll p.payload → tail = [])
    (ends : Phase.commands.Ends p.payload) :
    (settle ((packetBody p.payload tail).run e)).2 = false := by
  cases shape : p.payload with
  | nil => exact ite_self false
  | cons cmdByte text =>
      rw [shape] at rest ends
      simp only [Phase.Ends] at ends
      by_cases query : cmdByte = COM_QUERY
      · subst query
        rw [if_pos rfl] at ends
        rw [rest ⟨COM_QUERY, rfl, rfl⟩, packetBody, List.append_nil]
        exact settle_overflow ends
      · rw [if_neg query] at ends
        apply Bool.eq_false_iff.mpr
        intro kept
        cases settle_kept kept with
        | inl ping => exact ends.1 ping
        | inr all =>
            simp only [takesAll, Bool.or_eq_true, beq_iff_eq] at all
            exact all.elim query ends.2

theorem alike_command (state : e.session.state = .authenticated)
    (shown : b.readable = p.bytes ++ tail) (only : alone.readable = p.bytes)
    (rest : Phase.commands.TakesAll p.payload → tail = []) :
    Alike .commands p b alone (messageCallback sha1 ⟨b, e⟩) (messageCallback sha1 ⟨alone, e⟩) := by
  have whole : alone.readable = p.bytes ++ [] := by rw [only, List.append_nil]
  have same := packetBody_alone rest
  have dispatched : (e.dispatched p).session.state = .authenticated := state
  have authenticated (kept : (settle ((packetBody p.payload []).run (e.dispatched p))).2 = true) :=
    (settle_state (packetBody_quiet p.payload []) kept).trans dispatched
  have consumed (kept : (settle ((packetBody p.payload []).run (e.dispatched p))).2 = true)
      (consumes : Phase.commands.Consumes p.payload) :
      packetUse p.payload tail = p.bytes.length ∧ packetUse p.payload [] = p.bytes.length :=
    ⟨packetUse_eq kept rest consumes, packetUse_eq kept (fun _ => rfl) consumes⟩
  have ended := settle_ends (p := p) (e := e.dispatched p) fun _ => rfl
  have loggedIn : e.session.isAuthenticated = true := by simp [Session.isAuthenticated, state]
  rw [messageCallback_command loggedIn shown, messageCallback_command loggedIn whole, same]
  generalize settle ((packetBody p.payload []).run (e.dispatched p)) = result at *
  refine ⟨rfl, rfl, authenticated, fun kept consumes => ?_, ended⟩
  obtain ⟨here, there⟩ := consumed kept consumes
  exact ⟨congrArg b.advance here, congrArg alone.advance there⟩

theorem alike_login {r : HandshakeResponse41Packet} (state : e.session.state = .handshakeSent)
    (fields : (handshakeFields {}).run p.payload = some (r, []))
    (shown : b.readable = p.bytes ++ tail) (only : alone.readable = p.bytes) :
    Alike (.login (Authenticator.authenticate sha1 r.username r.authResponse
      e.session.authPluginData)) p b alone (messageCallback sha1 ⟨b, e⟩)
        (messageCallback sha1 ⟨alone, e⟩) := by
  have whole : alone.readable = p.bytes ++ [] := by rw [only, List.append_nil]
  cases verdict : Authenticator.authenticate sha1 r.username r.authResponse
      e.session.authPluginData with
  | false =>
      obtain ⟨e', ran, -⟩ := finishAuthentication_rejected sha1 verdict
      rw [messageCallback_login state fields ran shown, messageCallback_login state fields ran whole]
      exact ⟨rfl, rfl, nofun, fun _ _ => ⟨rfl, rfl⟩, fun _ => rfl⟩
  | true =>
      obtain ⟨e', ran, new, same, -⟩ := finishAuthentication_accepted sha1 verdict
      rw [messageCallback_login state fields ran shown, messageCallback_login state fields ran whole]
      exact ⟨rfl, rfl, fun _ => by rw [same]; rfl, fun _ _ => ⟨rfl, rfl⟩, nofun⟩

/-- A packet has the effect that it has alone, whatever has arrived behind it, unless its handler
takes all that has arrived. -/
theorem alike {phase : Phase} (fits : phase.Fits sha1 p.payload e.session)
    (shown : b.readable = p.bytes ++ tail) (only : alone.readable = p.bytes)
    (rest : phase.TakesAll p.payload → tail = []) :
    Alike phase p b alone (messageCallback sha1 ⟨b, e⟩) (messageCallback sha1 ⟨alone, e⟩) := by
  cases phase with
  | login accepted =>
      obtain ⟨state, r, fields, rfl⟩ := fits
      exact alike_login state fields shown only
  | commands => exact alike_command fits shown only rest

end Packet

end TinySql
