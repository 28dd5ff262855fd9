import TinySql.Network.ClientIsolation
import TinySql.Network.Login

/-!
# What is said on a connection

The greeting, one verdict at most, and then commands with one answer each at most: whatever all the
clients do, this is what passes on each connection.
-/

namespace TinySql
open Frame Run MySQLCommand

/-! ## One answer to a command -/

/-- There has been one response, or none. -/
def Replies (e e' : Exec) : Prop :=
  e'.events = e.events ∨ ∃ reply, e'.events = e.events ++ [.respond reply, .send reply]

/-- However it ends, with an exception too. -/
abbrev Answering (m : ExecM Bool) : Prop := Respects Replies m

theorem replies_of_responded {e e' : Exec} {bytes : Bytes} (same : e'.events = e.events) :
    Replies e (e'.responded bytes) := .inr ⟨bytes, by rw [← same]; rfl⟩

theorem sendOk_answering (p : OkPacket) : Answering (sendOk p) := by
  intro e
  rw [sendOk_run]
  exact replies_of_responded rfl

theorem sendErr_answering (p : ErrPacket) : Answering (sendErr p) := by
  intro e
  rw [sendErr_run]
  exact replies_of_responded rfl

theorem answer_answering (body : StatementM OkPacket) : Answering (answer body) := by
  intro e
  cases ends : body.run e.storage with
  | ok p s =>
      rw [answer_run_ok ends]
      exact replies_of_responded rfl
  | error p s =>
      rw [answer_run_error ends]
      exact replies_of_responded rfl

/-- The events are as they were. -/
def Unheard (e e' : Exec) : Prop := e'.events = e.events

instance : Std.Refl Unheard where
  refl _ := rfl

instance : IsTrans Exec Unheard where
  trans _ _ _ first second := Eq.trans second first

theorem encodeResultSet_unheard (result : SelectResult) (tableName dbName : Bytes) :
    Respects Unheard (encodeResultSet result tableName dbName) := by
  have counts : Respects Unheard nextSequenceId :=
    respects_get.bind fun _ => Respects.bind (respects_modify fun _ => rfl) fun _ => respects_pure _
  exact respects_encodeResultSet counts result tableName dbName

theorem executeSelect_throws {stmt : SelectStatement} {result : SelectResult} {e e' : Exec} {err : Exn}
    (ends : (selectRows stmt e.session.currentDatabase).run e.storage = .ok result e.storage)
    (ran : (executeSelect stmt).run e = .error err e') :
    (encodeResultSet result stmt.tableName e.session.currentDatabase).run e = .error err e' := by
  cases encoded : (encodeResultSet result stmt.tableName e.session.currentDatabase).run e with
  | ok response e'' =>
      obtain ⟨_, _, sent⟩ := responseCallback_total response e''
      simp only [executeSelect, EStateM.run_bind, EStateM.run_get, onStorage_ok ends, encoded, sent]
        at ran
      cases ran
  | error err' e'' =>
      simp only [executeSelect, EStateM.run_bind, EStateM.run_get, onStorage_ok ends, encoded] at ran
      cases ran
      rfl

/-- A SELECT that throws does so before it answers. -/
theorem executeSelect_answering (stmt : SelectStatement) : Answering (executeSelect stmt) := by
  intro e
  rcases selectRows_ends stmt e.session.currentDatabase e.storage with
    ⟨p, stops⟩ | ⟨table, fields, rows, -, -, -, ends⟩
  · rw [executeSelect_refused stops, sendErr_run]
    exact replies_of_responded rfl
  · generalize (⟨_, _, _⟩ : SelectResult) = result at ends
    cases ran : (executeSelect stmt).run e with
    | ok kept e' =>
        obtain ⟨e'', response, ran', events, -⟩ :=
          executeSelect_sends ends (executeSelect_inside ends ran)
        cases ran.symm.trans ran'
        exact .inr ⟨response, events⟩
    | error err e' =>
        have unheard := encodeResultSet_unheard result stmt.tableName e.session.currentDatabase e
        rw [executeSelect_throws ends ran] at unheard
        exact .inl unheard

theorem execute_answering (stmt : Statement) : Answering (execute stmt) := by
  intro e
  cases stmt with
  | select stmt =>
      rw [execute_select_run]
      exact executeSelect_answering stmt e
  | useDatabase databaseName =>
      rw [execute_useDatabase_run]
      exact replies_of_responded rfl
  | _ =>
      rw [execute, run_get_bind]
      exact answer_answering _ e

theorem handleQuery_answering (query : Bytes) : Answering (handleQuery query) := by
  unfold handleQuery
  split
  · exact fun e => .inl rfl
  · exact sendErr_answering _
  · exact sendOk_answering _
  · exact execute_answering _

theorem commandBody_answering (cmdByte : UInt8) (text : Bytes) :
    Answering (commandBody cmdByte text) := by
  unfold commandBody
  split
  · exact sendOk_answering _
  · exact fun e => .inl rfl
  · exact handleQuery_answering text
  · intro e
    rw [handleInitDb, run_bind_ok (modifySession_run _ e), sendOk_run]
    exact replies_of_responded rfl
  · intro e
    rw [run_bind_ok (sendErr_run unknownCommand e)]
    exact replies_of_responded rfl

theorem packetBody_answering (payload tail : Bytes) : Answering (packetBody payload tail) := by
  cases payload with
  | nil => exact fun e => .inl rfl
  | cons cmdByte rest => exact commandBody_answering cmdByte _

/-! ## The grammar of a connection -/

inductive Stage where
  | greeted
  | serving
  | ended

def greetingOf (connectionId : UInt32) (challenge : Vector UInt8 20) : Bytes :=
  (HandshakeV10Packet.encode { connectionId := connectionId, authPluginData := challenge } 0
    Buffer.empty).readable

/-- What can have happened on a connection with this challenge. -/
inductive Transcript (sha1 : Bytes → Vector UInt8 20) (connectionId : UInt32)
    (challenge : Vector UInt8 20) : Stage → List Event → Prop where
  | greeting : Transcript sha1 connectionId challenge .greeted
      [.send (greetingOf connectionId challenge)]
  | refused {events : List Event} {username authResponse : Bytes}
      (before : Transcript sha1 connectionId challenge .greeted events)
      (verdict : Authenticator.authenticate sha1 username authResponse challenge = false) :
      Transcript sha1 connectionId challenge .ended (events ++
        [.authenticate username authResponse challenge false,
          .send (packet 2 (accessDenied username).payload)])
  | accepted {events : List Event} {username authResponse : Bytes}
      (before : Transcript sha1 connectionId challenge .greeted events)
      (verdict : Authenticator.authenticate sha1 username authResponse challenge = true) :
      Transcript sha1 connectionId challenge .serving (events ++
        [.authenticate username authResponse challenge true, .send (packet 2 (okPacket 0 []).payload)])
  | silent {events : List Event} (before : Transcript sha1 connectionId challenge .serving events) :
      Transcript sha1 connectionId challenge .serving (events ++ [.dispatch])
  | answered {events : List Event} (reply : Bytes)
      (before : Transcript sha1 connectionId challenge .serving events) :
      Transcript sha1 connectionId challenge .serving
        (events ++ [.dispatch, .respond reply, .send reply])

section Connection
variable {sha1 : Bytes → Vector UInt8 20} {connectionId : UInt32} {challenge : Vector UInt8 20}

/-- The state of a session goes with what has been said, as long as the connection lasts. -/
def AtStage (stage : Stage) (s : Session) : Prop :=
  match stage with
  | .greeted => s.state = .handshakeSent
  | .serving => s.isAuthenticated = true
  | .ended => False

/-- A connection so far. -/
structure Talks (sha1 : Bytes → Vector UInt8 20) (connectionId : UInt32)
    (challenge : Vector UInt8 20) (c : Client) : Prop where
  drawn : c.session.authPluginData = challenge
  said : ∃ stage, Transcript sha1 connectionId challenge stage c.events ∧
    (c.connected = true → AtStage stage c.session)

theorem talks_greeted (connectionId : UInt32) (storage : StorageEngine)
    (challenge : Vector UInt8 20) : Talks sha1 connectionId challenge
      (.ofContext ⟨.empty, greeted connectionId storage challenge⟩ true) :=
  ⟨rfl, .greeted, .greeting, fun _ => rfl⟩

theorem Talks.login {c : Client} {b : Buffer} {storage : StorageEngine}
    (transcript : Transcript sha1 connectionId c.session.authPluginData .greeted c.events)
    (state : c.session.state = .handshakeSent)
    (whole : 4 ≤ b.readableBytes ∧ 4 + payloadLength b.readable ≤ b.readableBytes) :
    let after := TcpConnection.messageCallback sha1 ⟨b, ⟨c.session, storage, c.events⟩⟩
    Talks sha1 connectionId c.session.authPluginData (.ofContext after.context after.connected) := by
  have decoding := HandshakeResponse41Packet.decode_whole {} whole.1 whole.2
  split at decoding
  · rename_i r rest fields
    obtain ⟨b', decoded⟩ := decoding
    have run : (handleData sha1).run ⟨b, ⟨c.session, storage, c.events⟩⟩ =
        (onExec (finishAuthentication sha1 r)).run ⟨b', ⟨c.session, storage, c.events⟩⟩ := by
      rw [handleData_run, if_pos whole, state]
      simp [handleAuthentication, decoded]
    rw [TcpConnection.messageCallback, run, onExec_run, finishAuthentication_run]
    dsimp only
    cases verdict : Authenticator.authenticate sha1 r.username r.authResponse
        c.session.authPluginData with
    | true =>
        rw [if_pos rfl]
        exact ⟨rfl, .serving, .accepted transcript verdict, fun _ => rfl⟩
    | false =>
        rw [if_neg Bool.false_ne_true]
        refine ⟨rfl, .ended, .refused transcript verdict, fun closed => ?_⟩
        exact absurd closed Bool.false_ne_true
  · obtain ⟨e, b', thrown⟩ := decoding
    have run : (handleData sha1).run ⟨b, ⟨c.session, storage, c.events⟩⟩ =
        .error e ⟨b', ⟨c.session, storage, c.events⟩⟩ := by
      rw [handleData_run, if_pos whole, state]
      simp [handleAuthentication, thrown]
    rw [TcpConnection.messageCallback, run]
    exact ⟨rfl, .greeted, transcript, fun closed => absurd closed Bool.false_ne_true⟩

theorem Talks.command {c : Client} {b : Buffer} {storage : StorageEngine}
    (transcript : Transcript sha1 connectionId c.session.authPluginData .serving c.events)
    (authenticated : c.session.isAuthenticated = true) {p : ClientPacket} {tail : Bytes}
    (shown : b.readable = p.bytes ++ tail) :
    let after := TcpConnection.messageCallback sha1 ⟨b, ⟨c.session, storage, c.events⟩⟩
    Talks sha1 connectionId c.session.authPluginData (.ofContext after.context after.connected) := by
  rw [messageCallback_command authenticated shown]
  have quiet := packetBody_quiet p.payload tail
  have step := quiet (Exec.dispatched p ⟨c.session, storage, c.events⟩)
  have replies := packetBody_answering p.payload tail
    (Exec.dispatched p ⟨c.session, storage, c.events⟩)
  have state := @settle_state (Exec.dispatched p ⟨c.session, storage, c.events⟩) _ quiet
  rw [← settle_exec] at step replies
  generalize settle ((packetBody p.payload tail).run
    (Exec.dispatched p ⟨c.session, storage, c.events⟩)) = result at step replies state ⊢
  refine ⟨step.challenge, .serving, ?_, fun kept => ?_⟩
  · rcases replies with none | ⟨reply, some⟩
    · have said : result.1.events = c.events ++ [.dispatch] := none
      rw [Client.ofContext, said]
      exact .silent transcript
    · have said : result.1.events = c.events ++ [.dispatch, .respond reply, .send reply] := by
        rw [some, Exec.dispatched, Exec.received, List.append_assoc]
        rfl
      rw [Client.ofContext, said]
      exact .answered reply transcript
  · have same : result.1.session.state = c.session.state := state kept
    rw [AtStage, Client.ofContext, Session.isAuthenticated, same]
    exact authenticated

theorem Talks.data {c : Client} {b : Buffer} {storage : StorageEngine}
    (talks : Talks sha1 connectionId challenge c) (live : c.connected = true) :
    let after := TcpConnection.messageCallback sha1 ⟨b, ⟨c.session, storage, c.events⟩⟩
    Talks sha1 connectionId challenge (.ofContext after.context after.connected) := by
  obtain ⟨rfl, stage, transcript, atStage⟩ := talks
  have here := atStage live
  by_cases whole : 4 ≤ b.readableBytes ∧ 4 + payloadLength b.readable ≤ b.readableBytes
  · cases stage with
    | ended => exact here.elim
    | greeted => exact Talks.login transcript here whole
    | serving =>
        obtain ⟨p, tail, shown⟩ := exists_clientPacket whole.2
        exact Talks.command transcript here shown
  · rw [messageCallback_short whole]
    exact ⟨rfl, stage, transcript, fun _ => here⟩

end Connection

/-! ## All connections -/

namespace Clients

variable {sha1 : Bytes → Vector UInt8 20} {s s' : Clients} {e : Event} {seen : List Event}

/-- Every connection has been accepted with a challenge, and talks of it. -/
def AllTalk (sha1 : Bytes → Vector UInt8 20) (seen : List Event) (s : Clients) : Prop :=
  ∀ fd c, s.client fd = some c → ∃ challenge, .accept fd challenge ∈ seen ∧
    Talks sha1 (UInt32.ofNat fd) challenge c

/-- What holds of the connection that an event is about is enough; the others are as they were. -/
theorem AllTalk.of_own (talk : AllTalk sha1 seen s) (step : Step sha1 s e s')
    (own : ∀ c, s'.client e.fd = some c → ∃ challenge, .accept e.fd challenge ∈ seen ++ [e] ∧
      Talks sha1 (UInt32.ofNat e.fd) challenge c) : AllTalk sha1 (seen ++ [e]) s' := by
  intro fd c here
  by_cases same : fd = e.fd
  · subst same
    exact own c here
  · rw [client_of_step step same] at here
    obtain ⟨challenge, accepted, talks⟩ := talk fd c here
    exact ⟨challenge, List.mem_append_left _ accepted, talks⟩

theorem AllTalk.step (talk : AllTalk sha1 seen s) (step : Step sha1 s e s') :
    AllTalk sha1 (seen ++ [e]) s' := by
  apply talk.of_own step
  intro c here
  obtain ⟨-, served⟩ := step_iff.mp step
  cases e with
  | accept fd challenge =>
      obtain ⟨-, rfl⟩ := accept_eq_some.mp served
      cases (client_setClient fd _ s).symm.trans here
      exact ⟨challenge, List.mem_append_right _ List.mem_cons_self, talks_greeted _ _ _⟩
  | data fd chunk block =>
      obtain ⟨before, there, live, -, rfl⟩ := data_eq_some.mp served
      cases (client_handled _).symm.trans here
      obtain ⟨challenge, accepted, talks⟩ := talk fd before there
      exact ⟨challenge, List.mem_append_left _ accepted, talks.data live⟩
  | endOfFile fd =>
      obtain ⟨before, there, live, rfl⟩ := endOfFile_eq_some.mp served
      cases (client_setClient fd _ s).symm.trans here
      obtain ⟨challenge, accepted, drawn, stage, transcript, -⟩ := talk fd before there
      exact ⟨challenge, List.mem_append_left _ accepted, drawn, stage, transcript,
        fun connected => absurd connected Bool.false_ne_true⟩

theorem AllTalk.run {run : List Event} (talk : AllTalk sha1 seen s)
    (runs : Runs (Step sha1) s run s') : AllTalk sha1 (seen ++ run) s' := by
  induction runs generalizing seen with
  | nil s => rwa [List.append_nil]
  | @cons s s' s'' e rest first _ ih =>
      have later := ih (talk.step first)
      rwa [List.append_assoc, List.singleton_append] at later

/-- In every run of any number of clients: each connection has had its greeting, then at most one
verdict, which is on the challenge of its own greeting and the last that is said when it refuses,
and then commands, with at most one response to each. -/
theorem transcripts_conform (sha1 : Bytes → Vector UInt8 20) (storage : StorageEngine)
    (run : List Event) (s : Clients) (runs : Runs (Step sha1) (start storage) run s) (fd : Nat)
    (c : Client) (here : s.client fd = some c) :
    ∃ challenge stage, .accept fd challenge ∈ run ∧
      Transcript sha1 (UInt32.ofNat fd) challenge stage c.events ∧
      (c.connected = true → AtStage stage c.session) := by
  have nobody : AllTalk sha1 [] (start storage) := fun fd c here => by cases here
  obtain ⟨challenge, accepted, -, stage, transcript, atStage⟩ := nobody.run runs fd c here
  exact ⟨challenge, stage, accepted, transcript, atStage⟩

theorem twoClients_conform : ∃ s c challenge stage,
    Runs (Step fun _ => .replicate 20 0) (start .initial) (twoClients fun _ => 0) s ∧ s.client 4 = some c ∧
    .accept 4 challenge ∈ twoClients (fun _ => 0) ∧
    Transcript (fun _ => .replicate 20 0) 4 challenge stage c.events ∧
    (c.connected = true → AtStage stage c.session) := by
  have lives : (((twoClients fun _ => 0).foldlM (body fun _ => .replicate 20 0) (start .initial)).any
      fun s => (s.client 4).isSome) := by
    decide +kernel
  obtain ⟨s, ends, alive⟩ := (Option.any_eq_true _ _).mp lives
  obtain ⟨c, here⟩ := Option.isSome_iff_exists.mp alive
  have runs := runs_of_foldlM ends
  obtain ⟨challenge, stage, conforms⟩ :=
    transcripts_conform _ .initial (twoClients fun _ => 0) s runs 4 c here
  exact ⟨s, c, challenge, stage, runs, here, conforms⟩

end Clients

end TinySql
