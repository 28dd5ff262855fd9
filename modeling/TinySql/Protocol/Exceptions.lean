import TinySql.Command.Totality
import TinySql.Protocol.AuthenticationGate

/-!
# Exceptions that leave `handleData`

Nothing above `handleData` catches an exception. It lets two kinds of them out: those of a handshake
response whose fields are not all in the buffer, and the one of a query whose limit is no `int`.
-/

namespace TinySql
open Buffer Frame MySQLCommand StorageEngine TinySql.Parser

def Whole (bytes : Bytes) : Prop := 4 ≤ bytes.length ∧ 4 + payloadLength bytes ≤ bytes.length

/-- What is behind the command byte of a COM_QUERY, up to the end of the buffer, is a query whose
limit overflows. -/
def QueryOverflows (bytes : Bytes) : Prop :=
  1 ≤ payloadLength bytes ∧ bytes[4]? = some COM_QUERY ∧
    LimitOverflows (statementTokens (trim (bytes.drop 5)))

def Escapes (bytes : Bytes) : SessionState → Prop
  | .handshakeSent => (handshakeFields {}).run (bytes.drop 4) = none
  | .authenticated | .commandPhase => QueryOverflows bytes
  | _ => False

def Completes (m : HandlerM Bool) (c : Context) : Prop := ∃ kept c', m.run c = .ok kept c'

theorem onExec_completes_iff {m : ExecM Bool} {c : Context} :
    Completes (onExec m) c ↔ ∃ kept e, m.run c.exec = .ok kept e := by
  rw [Completes, onExec_run]
  cases m.run c.exec with
  | ok kept e => exact iff_of_true ⟨kept, _, rfl⟩ ⟨kept, e, rfl⟩
  | error err e => exact iff_of_false nofun nofun

theorem Completes.bind {m : HandlerM Bool} {f : Bool → HandlerM Bool} {c : Context}
    (later : ∀ kept, Total (f kept)) : Completes (m >>= f) c ↔ Completes m c := by
  unfold Completes
  rw [EStateM.run_bind]
  cases m.run c with
  | ok kept c' => exact iff_of_true (later kept c') ⟨kept, c', rfl⟩
  | error e c' => exact iff_of_false nofun nofun

/-! ## Commands -/

theorem dispatch_empty_run {b : Buffer} (header : 4 ≤ b.readableBytes)
    (empty : payloadLength b.readable = 0) (e : Exec) : Completes dispatch ⟨b, e⟩ := by
  obtain ⟨sequenceId, rest, shown⟩ := exists_cons_of_readable (b := b.advance 3) (by
    rw [readableBytes_advance]
    omega)
  have none : UInt32.ofNat 0 < 1 := by decide
  refine ⟨false, ⟨b.advance 4, e.received sequenceId⟩, ?_⟩
  simp only [dispatch, EStateM.run_bind, EStateM.run_get, if_neg (Nat.not_lt.mpr header),
    onBuffer_run, readThreeBytes_run (show 3 ≤ b.readableBytes by omega), readUint8_run shown,
    onExec_run, modifySession_run, advance_advance, Nat.reduceAdd, empty, if_pos none]
  rfl

theorem dispatch_completes_iff {b : Buffer} {e : Exec} (whole : Whole b.readable)
    (every : e.storage.Every Table.AllAdmissible) :
    Completes dispatch ⟨b, e⟩ ↔ ¬ QueryOverflows b.readable := by
  obtain ⟨sequenceId, payload, tail, shown, length⟩ := exists_packet whole.2
  cases payload with
  | nil =>
      have header : 4 ≤ b.readableBytes := by
        rw [← readable_length]
        exact whole.1
      have empty : payloadLength b.readable = 0 := length.symm
      refine iff_of_true (dispatch_empty_run header empty e) fun overflow => ?_
      have := overflow.1
      omega
  | cons cmdByte rest =>
      have short : (cmdByte :: rest).length < 2 ^ 24 := by
        rw [length]
        exact payloadLength_lt _
      have behind : b.readable.drop 4 = cmdByte :: (rest ++ tail) := by
        rw [← List.drop_drop (i := 1) (j := 3), shown, drop_packet]
        rfl
      have command : b.readable[4]? = some cmdByte := by
        rw [← List.head?_drop, behind]
        rfl
      have text : b.readable.drop 5 = rest ++ tail := by
        rw [← List.drop_drop (i := 1) (j := 4), behind]
        rfl
      have some : 1 ≤ payloadLength b.readable := by
        rw [← length]
        exact Nat.succ_pos _
      have storage : (e.received sequenceId).storage = e.storage := rfl
      rw [Completes, dispatch_run short shown, ← Completes, onExec_completes_iff,
        commandBody_returns_iff (storage ▸ every), QueryOverflows, command, text]
      simp [some]

theorem handleCommand_completes_iff {b : Buffer} {e : Exec} (state : e.session.isAuthenticated = true)
    (whole : Whole b.readable) (every : e.storage.Every Table.AllAdmissible) :
    Completes handleCommand ⟨b, e⟩ ↔ ¬ QueryOverflows b.readable := by
  have closing : ∀ result : Bool, Total (do
      if (← get).exec.session.state = .closing then return false
      return result : HandlerM Bool) := by
    intro result
    apply total_get.bind
    intro c
    split <;> exact total_pure _
  have run : handleCommand.run ⟨b, e⟩ = (do
      let result ← dispatch
      if (← get).exec.session.state = .closing then return false
      return result : HandlerM Bool).run ⟨b, { e with events := e.events ++ [.dispatch] }⟩ := by
    simp only [handleCommand, EStateM.run_bind, EStateM.run_get, state]
    rfl
  rw [Completes, run, ← Completes, Completes.bind closing]
  exact dispatch_completes_iff whole every

/-! ## The handshake response -/

theorem finishAuthentication_total (sha1 : Bytes → Vector UInt8 20)
    (authResponse : HandshakeResponse41Packet) : Total (finishAuthentication sha1 authResponse) := by
  intro e
  cases verdict : Authenticator.authenticate sha1 authResponse.username authResponse.authResponse
      e.session.authPluginData with
  | false =>
      obtain ⟨e', ran, -⟩ := finishAuthentication_rejected sha1 verdict
      exact ⟨_, _, ran⟩
  | true =>
      obtain ⟨e', ran, -⟩ := finishAuthentication_accepted sha1 verdict
      exact ⟨_, _, ran⟩

theorem handleAuthentication_completes_iff (sha1 : Bytes → Vector UInt8 20) {b : Buffer}
    (whole : Whole b.readable) (e : Exec) : Completes (handleAuthentication sha1) ⟨b, e⟩ ↔
      ¬ (handshakeFields {}).run (b.readable.drop 4) = none := by
  have decoded := HandshakeResponse41Packet.decode_whole {} (b := b)
    (by rw [← readable_length]; exact whole.1) (by rw [← readable_length]; exact whole.2)
  cases fields : (handshakeFields {}).run (b.readable.drop 4) with
  | none =>
      rw [fields] at decoded
      obtain ⟨err, b', thrown⟩ := decoded
      refine iff_of_false ?_ (not_not_intro rfl)
      rintro ⟨kept, c', ran⟩
      simp [handleAuthentication, thrown] at ran
  | some found =>
      rw [fields] at decoded
      obtain ⟨b', ran⟩ := decoded
      refine iff_of_true ?_ (by simp)
      obtain ⟨kept, e', ran'⟩ := finishAuthentication_total sha1 found.1 e
      exact ⟨kept, ⟨b', e'⟩, by simp [handleAuthentication, ran, ran']⟩

/-! ## `handleData` -/

/-- A call of `handleData` returns except on the buffers of `Escapes`. -/
theorem handleData_completes_iff (sha1 : Bytes → Vector UInt8 20) (input : Buffer) (e : Exec)
    (reached : Reached e.storage) : Completes (handleData sha1) ⟨input, e⟩ ↔
      ¬ (Whole input.readable ∧ Escapes input.readable e.session.state) := by
  have every := reached.allAdmissible
  rw [Completes, handleData_run, ← readable_length]
  by_cases whole : Whole input.readable
  · rw [if_pos (And.intro whole.1 whole.2), ← Completes]
    cases state : e.session.state with
    | handshakeSent =>
        rw [handleAuthentication_completes_iff sha1 whole]
        simp [Escapes, whole]
    | authenticated | commandPhase =>
        have authenticated : e.session.isAuthenticated = true := by
          simp [Session.isAuthenticated, state]
        rw [handleCommand_completes_iff authenticated whole every]
        simp [Escapes, whole]
    | _ => exact iff_of_true ⟨false, _, rfl⟩ fun both => both.2
  · rw [if_neg fun both : _ ∧ _ => whole both]
    exact iff_of_true ⟨true, _, rfl⟩ fun both => whole both.1

theorem initial_reached : Reached .initial := ⟨[], .nil _⟩

theorem ping_completes :
    Completes (handleData fun _ => .replicate 20 0) ⟨Buffer.ofBytes pingPacket, authenticatedExec⟩ := by
  refine (handleData_completes_iff _ _ authenticatedExec initial_reached).mpr ?_
  rintro ⟨-, -, command, -⟩
  exact absurd command (by decide)

def limitPacket : Bytes := packet 0 (COM_QUERY :: ascii "SELECT * LIMIT 99999999999")

theorem limit_escapes : ¬ ∀ (sha1 : Bytes → Vector UInt8 20) (input : Buffer) (e : Exec),
    Reached e.storage → Completes (handleData sha1) ⟨input, e⟩ := by
  intro all
  obtain ⟨kept, c, ran⟩ := all (fun _ => .replicate 20 0) (Buffer.ofBytes limitPacket)
    authenticatedExec initial_reached
  have thrown : (outcome ((handleData fun _ => .replicate 20 0).run
      ⟨Buffer.ofBytes limitPacket, authenticatedExec⟩)).1 = .error (.outOfRange (ascii "stoi")) := by
    decide +kernel
  rw [ran] at thrown
  cases thrown

end TinySql
