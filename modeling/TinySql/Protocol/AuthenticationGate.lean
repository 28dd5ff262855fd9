import TinySql.Command.CommandFrame
import TinySql.Protocol.ProtocolHandler

/-!
# The authentication gate

A run of a `ProtocolHandler` is the greeting and then `handleData` on any buffers. What one call
does to the session, the storage and the record of events is said once, by `DataStep`; the gate is
an invariant of it.
-/

namespace TinySql
open Frame Buffer

variable (sha1 : Bytes → Vector UInt8 20)

def afterData (e : Exec) (input : Buffer) : Exec := (final ((handleData sha1).run ⟨input, e⟩)).exec

def greeted (connectionId : UInt32) (storage : StorageEngine) (challenge : Vector UInt8 20) : Exec :=
  final ((sendHandshake challenge).run (newConnection connectionId storage))

def Outputs (e e' : Exec) : Prop :=
  ∃ new, e' = { e with events := e.events ++ new } ∧ ∀ event ∈ new, event.isOutput = true

def acceptedSession (s : Session) (p : HandshakeResponse41Packet) : Session :=
  { s with
    username := p.username
    currentDatabase := if p.database ≠ [] then p.database else s.currentDatabase
    state := .authenticated }

/-- What one call of `handleData` can do. -/
inductive DataStep (input : Buffer) (e : Exec) : Exec → Prop where
  /-- The packet is not complete, the connection is closing, or decoding has thrown. -/
  | nothing : DataStep input e e
  | badHandshake {e' : Exec} (state : e.session.state = .handshakeSent) (outputs : Outputs e e') :
      DataStep input e e'
  | rejected {p : HandshakeResponse41Packet} {rest : Bytes} {e' : Exec}
      (state : e.session.state = .handshakeSent)
      (fields : (handshakeFields {}).run (input.readable.drop 4) = some (p, rest))
      (refused : Authenticator.authenticate sha1 p.username p.authResponse
        e.session.authPluginData = false)
      (outputs : Outputs { e with events := e.events ++
        [.authenticate p.username p.authResponse e.session.authPluginData false] } e') :
      DataStep input e e'
  | accepted {p : HandshakeResponse41Packet} {rest : Bytes} {e' : Exec}
      (state : e.session.state = .handshakeSent)
      (fields : (handshakeFields {}).run (input.readable.drop 4) = some (p, rest))
      (granted : Authenticator.authenticate sha1 p.username p.authResponse
        e.session.authPluginData = true)
      (outputs : Outputs { e with
        session := acceptedSession e.session p
        events := e.events ++
          [.authenticate p.username p.authResponse e.session.authPluginData true] } e') :
      DataStep input e e'
  | command {e' : Exec} (state : e.session.isAuthenticated = true)
      (step : CommandStep { e with events := e.events ++ [.dispatch] } e') : DataStep input e e'

theorem sendResponse_outputs (response : Buffer) (e : Exec) :
    ∃ e', (sendResponse response).run e = .ok () e' ∧ Outputs e e' := by
  unfold sendResponse
  split
  · exact ⟨_, rfl, [.send response.readable], rfl, by simp [Event.isOutput]⟩
  · exact ⟨e, rfl, [], by simp, by simp⟩

theorem finishAuthentication_rejected {e : Exec} {p : HandshakeResponse41Packet}
    (refused : Authenticator.authenticate sha1 p.username p.authResponse
      e.session.authPluginData = false) :
    ∃ e', (finishAuthentication sha1 p).run e = .ok false e' ∧ Outputs { e with events := e.events ++
      [.authenticate p.username p.authResponse e.session.authPluginData false] } e' := by
  obtain ⟨e', ran, outputs⟩ := sendResponse_outputs
    ((accessDenied p.username).encode 2 Buffer.empty) { e with events := e.events ++
      [.authenticate p.username p.authResponse e.session.authPluginData false] }
  refine ⟨e', ?_, outputs⟩
  simp [finishAuthentication, refused, ran]

theorem finishAuthentication_accepted {e : Exec} {p : HandshakeResponse41Packet}
    (granted : Authenticator.authenticate sha1 p.username p.authResponse
      e.session.authPluginData = true) :
    ∃ e', (finishAuthentication sha1 p).run e = .ok true e' ∧ Outputs { e with
      session := acceptedSession e.session p
      events := e.events ++
        [.authenticate p.username p.authResponse e.session.authPluginData true] } e' := by
  obtain ⟨e', ran, outputs⟩ := sendResponse_outputs ((okPacket 0 []).encode 2 Buffer.empty)
    { e with
      session := acceptedSession e.session p
      events := e.events ++
        [.authenticate p.username p.authResponse e.session.authPluginData true] }
  refine ⟨e', ?_, outputs⟩
  by_cases named : p.database = []
  · simp_all [finishAuthentication, acceptedSession]
  · simp_all [finishAuthentication, acceptedSession]

theorem finishAuthentication_step {input : Buffer} {e : Exec} {p : HandshakeResponse41Packet}
    {rest : Bytes} (state : e.session.state = .handshakeSent)
    (fields : (handshakeFields {}).run (input.readable.drop 4) = some (p, rest)) :
    DataStep sha1 input e (final ((finishAuthentication sha1 p).run e)) := by
  cases verdict : Authenticator.authenticate sha1 p.username p.authResponse
      e.session.authPluginData with
  | false =>
      obtain ⟨e', run, outputs⟩ := finishAuthentication_rejected sha1 verdict
      rw [run]
      exact .rejected state fields verdict outputs
  | true =>
      obtain ⟨e', run, outputs⟩ := finishAuthentication_accepted sha1 verdict
      rw [run]
      exact .accepted state fields verdict outputs

/-- Decoding reads the fields behind the packet header, and nothing else decides its result. -/
theorem decode_some {b b' : Buffer} {p : HandshakeResponse41Packet} (header : 4 ≤ b.readableBytes)
    (decoded : (HandshakeResponse41Packet.decode {}).run b = .ok (some p) b') :
    ∃ rest, (handshakeFields {}).run (b.readable.drop 4) = some (p, rest) := by
  by_cases whole : 4 + payloadLength b.readable ≤ b.readableBytes
  · have cases := HandshakeResponse41Packet.decode_whole {} header whole
    split at cases
    · rename_i p' rest fields
      obtain ⟨b'', ran⟩ := cases
      rw [ran] at decoded
      obtain rfl : p' = p := by simpa using (EStateM.Result.ok.inj decoded).1
      exact ⟨rest, fields⟩
    · obtain ⟨e, b'', thrown⟩ := cases
      rw [thrown] at decoded
      cases decoded
  · rw [HandshakeResponse41Packet.decode_run {} header, if_pos (Nat.not_le.mp whole)] at decoded
    cases decoded

theorem handleAuthentication_step {input : Buffer} {e : Exec} (header : 4 ≤ input.readableBytes)
    (state : e.session.state = .handshakeSent) :
    DataStep sha1 input e (final ((handleAuthentication sha1).run ⟨input, e⟩)).exec := by
  cases decoded : (HandshakeResponse41Packet.decode {}).run input with
  | error err b' =>
      have run : (handleAuthentication sha1).run ⟨input, e⟩ = .error err ⟨b', e⟩ := by
        simp [handleAuthentication, decoded]
      rw [run]
      exact .nothing
  | ok result b' =>
      cases result with
      | none =>
          obtain ⟨e', ran, outputs⟩ := sendResponse_outputs (badHandshake.encode 2 Buffer.empty) e
          have run : (handleAuthentication sha1).run ⟨input, e⟩ = .ok false ⟨b', e'⟩ := by
            simp [handleAuthentication, decoded, ran]
          rw [run]
          exact .badHandshake state outputs
      | some p =>
          obtain ⟨rest, fields⟩ := decode_some header decoded
          have step := finishAuthentication_step sha1 state fields
          have run : (final ((handleAuthentication sha1).run ⟨input, e⟩)).exec =
              final ((finishAuthentication sha1 p).run e) := by
            simp only [handleAuthentication, EStateM.run_bind, onBuffer_run, decoded, onExec_run]
            cases (finishAuthentication sha1 p).run e <;> rfl
          rwa [run]

theorem handleCommand_step {input : Buffer} {e : Exec} (state : e.session.isAuthenticated = true) :
    DataStep sha1 input e (final (handleCommand.run ⟨input, e⟩)).exec := by
  refine .command state ?_
  have quiet : Respects (OutsideBuffer CommandStep) (do
      let result ← dispatch
      if (← get).exec.session.state = .closing then return false
      return result) := by
    refine dispatch_quiet.bind fun result => respects_get.bind fun c => ?_
    split <;> exact respects_pure _
  have step := quiet ⟨input, { e with events := e.events ++ [.dispatch] }⟩
  have run : handleCommand.run ⟨input, e⟩ = (do
      let result ← dispatch
      if (← get).exec.session.state = .closing then return false
      return result : HandlerM Bool).run ⟨input, { e with events := e.events ++ [.dispatch] }⟩ := by
    simp only [handleCommand, EStateM.run_bind, EStateM.run_get, state]
    rfl
  rwa [run]

theorem handleData_step (input : Buffer) (e : Exec) :
    DataStep sha1 input e (afterData sha1 e input) := by
  rw [afterData, handleData_run]
  split
  · rename_i whole
    cases state : e.session.state with
    | handshakeSent => exact handleAuthentication_step sha1 whole.1 state
    | authenticated => exact handleCommand_step sha1 (by simp [Session.isAuthenticated, state])
    | commandPhase => exact handleCommand_step sha1 (by simp [Session.isAuthenticated, state])
    | _ => exact .nothing
  · exact .nothing

/-! ## The invariant -/

def Event.isAccepted : Event → Bool
  | .authenticate _ _ _ accepted => accepted
  | .dispatch | .respond _ | .send _ => false

/-- Nobody has been let in: neither a command nor an accepted user is on record. -/
structure Waiting (start : StorageEngine) (e : Exec) : Prop where
  state : e.session.state = .handshakeSent
  storage : e.storage = start
  closed : ∀ event ∈ e.events, event.isAccepted = false ∧ event ≠ .dispatch

/-- The user of the session has been let in, before any command and as the only one. -/
structure Admitted (challenge : Vector UInt8 20) (e : Exec) : Prop where
  state : e.session.isAuthenticated = true ∨ e.session.state = .closing
  admission : ∃ authResponse before after,
    e.events = before ++ .authenticate e.session.username authResponse challenge true :: after ∧
    (∀ event ∈ before, event.isAccepted = false ∧ event ≠ .dispatch) ∧
    ∀ event ∈ after, event.isAccepted = false

structure Gate (start : StorageEngine) (challenge : Vector UInt8 20) (e : Exec) : Prop where
  drawn : e.session.authPluginData = challenge
  calls : ∀ username authResponse c accepted,
    .authenticate username authResponse c accepted ∈ e.events →
      c = challenge ∧ accepted = Authenticator.authenticate sha1 username authResponse challenge
  phase : Waiting start e ∨ Admitted challenge e

variable {sha1} {start : StorageEngine} {challenge : Vector UInt8 20} {e e' : Exec}

theorem isAccepted_of_isOutput {event : Event} (output : event.isOutput = true) :
    event.isAccepted = false ∧ event ≠ .dispatch := by
  cases event <;> simp_all [Event.isOutput, Event.isAccepted]

theorem Outputs.gate (outputs : Outputs e e') (gate : Gate sha1 start challenge e) :
    Gate sha1 start challenge e' := by
  obtain ⟨new, rfl, output⟩ := outputs
  refine ⟨gate.drawn, fun username authResponse c accepted member => ?_, ?_⟩
  · rcases List.mem_append.mp member with old | added
    · exact gate.calls username authResponse c accepted old
    · cases output _ added
  · rcases gate.phase with waiting | admitted
    · refine .inl ⟨waiting.state, waiting.storage, fun event member => ?_⟩
      rcases List.mem_append.mp member with old | added
      · exact waiting.closed event old
      · exact isAccepted_of_isOutput (output event added)
    · obtain ⟨authResponse, before, after, events, first, only⟩ := admitted.admission
      refine .inr ⟨admitted.state, authResponse, before, after ++ new, ?_, first, ?_⟩
      · simp only [events, List.append_assoc, List.cons_append]
      · intro event member
        rcases List.mem_append.mp member with old | added
        · exact only event old
        · exact (isAccepted_of_isOutput (output event added)).1

theorem Gate.waiting (gate : Gate sha1 start challenge e)
    (state : e.session.state = .handshakeSent) : Waiting start e := by
  rcases gate.phase with waiting | admitted
  · exact waiting
  · rcases admitted.state with authenticated | closing
    · simp [Session.isAuthenticated, state] at authenticated
    · simp [state] at closing

theorem Gate.admitted (gate : Gate sha1 start challenge e)
    (state : e.session.isAuthenticated = true) : Admitted challenge e := by
  rcases gate.phase with waiting | admitted
  · simp [Session.isAuthenticated, waiting.state] at state
  · exact admitted

theorem Gate.record (gate : Gate sha1 start challenge e) {p : HandshakeResponse41Packet}
    {verdict : Bool} (judged : Authenticator.authenticate sha1 p.username p.authResponse
      e.session.authPluginData = verdict) {username authResponse : Bytes} {c : Vector UInt8 20}
    {accepted : Bool} (member : .authenticate username authResponse c accepted ∈ e.events ++
      [.authenticate p.username p.authResponse e.session.authPluginData verdict]) :
    c = challenge ∧
      accepted = Authenticator.authenticate sha1 username authResponse challenge := by
  rcases List.mem_append.mp member with old | added
  · exact gate.calls username authResponse c accepted old
  · rw [gate.drawn] at judged added
    cases List.mem_singleton.mp added
    exact ⟨rfl, judged.symm⟩

theorem Gate.step (gate : Gate sha1 start challenge e) {input : Buffer}
    (step : DataStep sha1 input e e') : Gate sha1 start challenge e' := by
  cases step with
  | nothing => exact gate
  | badHandshake state outputs => exact outputs.gate gate
  | rejected state fields refused outputs =>
      have waiting := gate.waiting state
      refine outputs.gate ⟨gate.drawn, fun _ _ _ _ => gate.record refused, .inl ?_⟩
      refine ⟨state, waiting.storage, fun event member => ?_⟩
      rcases List.mem_append.mp member with old | added
      · exact waiting.closed event old
      · cases List.mem_singleton.mp added
        exact ⟨rfl, by simp⟩
  | @accepted p rest _ state fields granted outputs =>
      have waiting := gate.waiting state
      refine outputs.gate ⟨gate.drawn, fun _ _ _ _ => gate.record granted, .inr ?_⟩
      refine ⟨.inl rfl, p.authResponse, e.events, [], ?_, waiting.closed, by simp⟩
      rw [gate.drawn]
      rfl
  | command state step =>
      have admitted := gate.admitted state
      obtain ⟨authResponse, before, after, events, first, only⟩ := admitted.admission
      obtain ⟨new, added, output⟩ := step.events
      have record : e'.events = before ++ .authenticate e.session.username authResponse challenge
          true :: (after ++ .dispatch :: new) := by
        simp only [added, events, List.append_assoc, List.cons_append, List.nil_append]
      have quiet : ∀ event ∈ after ++ .dispatch :: new, event.isAccepted = false := by
        intro event member
        rcases List.mem_append.mp member with old | here
        · exact only event old
        · rcases List.mem_cons.mp here with rfl | here
          · rfl
          · exact (isAccepted_of_isOutput (output event here)).1
      refine ⟨step.challenge.trans gate.drawn, ?_, .inr ⟨?_, ?_⟩⟩
      · intro username authResponse' c accepted member
        refine gate.calls username authResponse' c accepted ?_
        rw [added] at member
        rcases List.mem_append.mp member with old | here
        · rcases List.mem_append.mp old with old | here
          · exact old
          · cases List.mem_singleton.mp here
        · cases output _ here
      · rcases step.state with same | closing
        · exact .inl (by simpa [Session.isAuthenticated, same] using state)
        · exact .inr closing
      · exact ⟨authResponse, before, after ++ .dispatch :: new, by rw [step.username, record],
          first, quiet⟩

theorem greeted_gate (connectionId : UInt32) (storage : StorageEngine)
    (challenge : Vector UInt8 20) :
    Gate sha1 storage challenge (greeted connectionId storage challenge) where
  drawn := rfl
  calls username authResponse c accepted member := by
    simp [greeted, sendHandshake, newConnection, final] at member
  phase := by
    refine .inl ⟨rfl, rfl, fun event member => ?_⟩
    have sent : event.isOutput = true := by
      simp only [greeted, sendHandshake, newConnection, final] at member
      simp at member
      rw [member]
      rfl
    exact isAccepted_of_isOutput sent

/-- The state of a connection behind its greeting and calls of `handleData` on these buffers. -/
def afterRun (sha1 : Bytes → Vector UInt8 20) (connectionId : UInt32) (storage : StorageEngine)
    (challenge : Vector UInt8 20) (inputs : List Buffer) : Exec :=
  inputs.foldl (afterData sha1) (greeted connectionId storage challenge)

theorem afterRun_gate (connectionId : UInt32) (storage : StorageEngine)
    (challenge : Vector UInt8 20) (inputs : List Buffer) :
    Gate sha1 storage challenge (afterRun sha1 connectionId storage challenge inputs) := by
  have run (e : Exec) (gate : Gate sha1 storage challenge e) :
      Gate sha1 storage challenge (inputs.foldl (afterData sha1) e) := by
    induction inputs generalizing e with
    | nil => exact gate
    | cons input rest ih => exact ih _ (gate.step (handleData_step sha1 input e))
  exact run _ (greeted_gate connectionId storage challenge)

theorem Gate.accepted_before_dispatch (gate : Gate sha1 start challenge e)
    {before after : List Event} (events : e.events = before ++ .dispatch :: after) :
    ∃ username authResponse, .authenticate username authResponse challenge true ∈ before := by
  rcases gate.phase with waiting | admitted
  · exact absurd rfl (waiting.closed .dispatch (by simp [events])).2
  · obtain ⟨authResponse, first, rest, split, clean, -⟩ := admitted.admission
    refine ⟨e.session.username, authResponse, ?_⟩
    rcases List.append_eq_append_iff.mp (events.symm.trans split) with
      ⟨middle, rfl, same⟩ | ⟨middle, rfl, same⟩
    · cases middle with
      | nil => simp at same
      | cons event middle =>
          obtain ⟨rfl, -⟩ := List.cons_eq_cons.mp same
          exact absurd rfl (clean .dispatch (by simp)).2
    · cases middle with
      | nil => simp at same
      | cons event middle =>
          obtain ⟨rfl, -⟩ := List.cons_eq_cons.mp same
          simp

theorem Gate.username (gate : Gate sha1 start challenge e) {username authResponse : Bytes}
    {c : Vector UInt8 20} (member : .authenticate username authResponse c true ∈ e.events) :
    e.session.username = username := by
  rcases gate.phase with waiting | admitted
  · cases (waiting.closed _ member).1
  · obtain ⟨authResponse', before, after, events, clean, only⟩ := admitted.admission
    rw [events, List.mem_append, List.mem_cons] at member
    rcases member with early | here | late
    · cases (clean _ early).1
    · cases here
      rfl
    · cases only _ late

theorem DataStep.authentication {input : Buffer} (step : DataStep sha1 input e e')
    {new : List Event} (events : e'.events = e.events ++ new) {username authResponse : Bytes}
    {c : Vector UInt8 20} {accepted : Bool}
    (member : .authenticate username authResponse c accepted ∈ new) :
    ∃ p rest, (handshakeFields {}).run (input.readable.drop 4) = some (p, rest) ∧
      p.username = username ∧ p.authResponse = authResponse := by
  have outside {added : List Event} (output : ∀ event ∈ added, event.isOutput = true) :
      .authenticate username authResponse c accepted ∉ added := fun here => by
    cases output _ here
  have own {p : HandshakeResponse41Packet} {rest : Bytes} {verdict : Bool} {added : List Event}
      (fields : (handshakeFields {}).run (input.readable.drop 4) = some (p, rest))
      (output : ∀ event ∈ added, event.isOutput = true)
      (same : e.events ++ [.authenticate p.username p.authResponse e.session.authPluginData
        verdict] ++ added = e.events ++ new) :
      ∃ p rest, (handshakeFields {}).run (input.readable.drop 4) = some (p, rest) ∧
        p.username = username ∧ p.authResponse = authResponse := by
    rw [List.append_assoc] at same
    rw [← List.append_cancel_left same] at member
    rcases List.mem_cons.mp member with here | there
    · cases here
      exact ⟨p, rest, fields, rfl, rfl⟩
    · exact absurd there (outside output)
  cases step with
  | nothing =>
      obtain rfl : new = [] := by simpa using events
      simp at member
  | badHandshake state outputs =>
      obtain ⟨added, rfl, output⟩ := outputs
      rw [← List.append_cancel_left events] at member
      exact absurd member (outside output)
  | rejected state fields refused outputs =>
      obtain ⟨added, rfl, output⟩ := outputs
      exact own fields output events
  | accepted state fields granted outputs =>
      obtain ⟨added, rfl, output⟩ := outputs
      exact own fields output events
  | command state step =>
      obtain ⟨added, same, output⟩ := step.events
      rw [events, List.append_assoc] at same
      rw [List.append_cancel_left same] at member
      rcases List.mem_cons.mp member with here | there
      · cases here
      · exact absurd there (outside output)

theorem DataStep.rejection {input : Buffer} (step : DataStep sha1 input e e') {new : List Event}
    (events : e'.events = e.events ++ new) (state : e.session.state = .handshakeSent)
    (refused : ∀ event ∈ new, event.isAccepted = false) : e'.session = e.session := by
  cases step with
  | nothing => rfl
  | badHandshake _ outputs =>
      obtain ⟨added, rfl, -⟩ := outputs
      rfl
  | rejected _ fields verdict outputs =>
      obtain ⟨added, rfl, -⟩ := outputs
      rfl
  | @accepted p _ _ _ fields granted outputs =>
      obtain ⟨added, rfl, -⟩ := outputs
      have same : e.events ++ [.authenticate p.username p.authResponse e.session.authPluginData
        true] ++ added = e.events ++ new := events
      rw [List.append_assoc] at same
      have accepted := refused (.authenticate p.username p.authResponse e.session.authPluginData
        true) (by rw [← List.append_cancel_left same]; simp)
      cases accepted
  | command authenticated step => simp [Session.isAuthenticated, state] at authenticated

/-- In every run, from every storage: a command, or a change of the storage, has an accepted
authentication before it, judged for the challenge that was sent; the accepted user stays the user
of the session; what a call records of an authentication is about the packet in its buffer, and an
attempt that nobody passes leaves the session as it was; a closing session does nothing more. -/
theorem authentication_gate (sha1 : Bytes → Vector UInt8 20) (connectionId : UInt32)
    (storage : StorageEngine) (challenge : Vector UInt8 20) (inputs : List Buffer) :
    let e := afterRun sha1 connectionId storage challenge inputs
    (∀ before after, e.events = before ++ .dispatch :: after →
      ∃ username authResponse, .authenticate username authResponse challenge true ∈ before) ∧
    (e.storage ≠ storage →
      ∃ username authResponse, .authenticate username authResponse challenge true ∈ e.events) ∧
    (∀ username authResponse c accepted, .authenticate username authResponse c accepted ∈ e.events →
      c = challenge ∧ accepted = Authenticator.authenticate sha1 username authResponse challenge) ∧
    (∀ username authResponse c, .authenticate username authResponse c true ∈ e.events →
      e.session.username = username) ∧
    (∀ input new, (afterData sha1 e input).events = e.events ++ new →
      (∀ username authResponse c accepted, .authenticate username authResponse c accepted ∈ new →
        ∃ p rest, (handshakeFields {}).run (input.readable.drop 4) = some (p, rest) ∧
          p.username = username ∧ p.authResponse = authResponse) ∧
      (e.session.state = .handshakeSent → (∀ event ∈ new, event.isAccepted = false) →
        (afterData sha1 e input).session = e.session)) ∧
    (e.session.state = .closing → ∀ input, afterData sha1 e input = e) := by
  intro e
  have gate : Gate sha1 storage challenge e := afterRun_gate connectionId storage challenge inputs
  refine ⟨fun before after => gate.accepted_before_dispatch, ?_, gate.calls,
    fun username authResponse c => gate.username, ?_, ?_⟩
  · intro changed
    rcases gate.phase with waiting | admitted
    · exact absurd waiting.storage changed
    · obtain ⟨authResponse, before, after, events, -, -⟩ := admitted.admission
      exact ⟨e.session.username, authResponse, by rw [events]; simp⟩
  · intro input new events
    have step := handleData_step sha1 input e
    exact ⟨fun _ _ _ _ => step.authentication events, step.rejection events⟩
  · intro closing input
    rw [afterData, handleData_run, closing]
    split <;> rfl

end TinySql
