import TinySql.Command.AnswerKinds
import TinySql.Command.CommandFrame

/-!
# The sequence ids of a response

`dispatch` sets the counter of the session to the sequence id of the command, and
`nextSequenceId` returns the counter before it advances it. The packets of a response are numbered
without a gap, but the first one carries the id of the command itself.
-/

namespace TinySql
open Frame MySQLCommand ResultSet Wire

/-- The response consists of packets, one at least, that are numbered from this id on. -/
def NumberedFrom (sequenceId : UInt8) (response : Bytes) : Prop :=
  ∃ payloads, payloads ≠ [] ∧ response = packets sequenceId payloads

/-- The packets of the response carry the sequence ids behind that of the command. -/
def FollowsCommand (sequenceId : UInt8) (response : Bytes) : Prop :=
  NumberedFrom (sequenceId + 1) response

theorem numberedFrom_packet (sequenceId : UInt8) (payload : Bytes) :
    NumberedFrom sequenceId (packet sequenceId payload) :=
  ⟨[payload], List.cons_ne_nil _ _, by rw [packets, packets, List.append_nil]⟩

theorem NumberedFrom.first {sequenceId : UInt8} {response : Bytes}
    (numbered : NumberedFrom sequenceId response) : response[3]? = some sequenceId := by
  obtain ⟨payloads, some, rfl⟩ := numbered
  cases payloads with
  | nil => exact absurd rfl some
  | cons payload rest => simp [packets, packet, le]

theorem NumberedFrom.not_followsCommand {sequenceId : UInt8} {response : Bytes}
    (numbered : NumberedFrom sequenceId response) : ¬ FollowsCommand sequenceId response := by
  intro follows
  have same := Option.some.inj (numbered.first.symm.trans follows.first)
  have toNat := congrArg UInt8.toNat same
  have bound := sequenceId.toNat_lt
  rw [UInt8.toNat_add, UInt8.toNat_one] at toNat
  omega

/-! ## One response at most -/

/-- However the computation ends, it has answered with one numbered response or not at all. -/
def Responds {α : Type} (m : ExecM α) : Prop := ∀ e, (final (m.run e)).events = e.events ∨
  ∃ response, NumberedFrom e.session.sequenceId response ∧
    (final (m.run e)).events = e.events ++ [.respond response, .send response]

/-- Neither an event nor a sequence id. -/
def Unseen (e e' : Exec) : Prop :=
  e'.events = e.events ∧ e'.session.sequenceId = e.session.sequenceId

def SameEvents (e e' : Exec) : Prop := e'.events = e.events

instance : Std.Refl SameEvents where
  refl _ := rfl

instance : IsTrans Exec SameEvents where
  trans _ _ _ first second := Eq.trans second first

theorem Responds.after {α β : Type} {m : ExecM α} {f : α → ExecM β} (first : Respects Unseen m)
    (later : ∀ a, Responds (f a)) : Responds (m >>= f) := by
  intro e
  have unseen := first e
  rw [EStateM.run_bind]
  cases ran : m.run e with
  | error err e' =>
      rw [ran] at unseen
      exact .inl unseen.1
  | ok a e' =>
      rw [ran] at unseen
      obtain ⟨events, sequenceId⟩ := unseen
      have ends := later a e'
      simp only [final] at events sequenceId
      rwa [events, sequenceId] at ends

theorem Responds.before_return {α β : Type} {m : ExecM α} (first : Responds m) (b : β) :
    Responds (do let _ ← m; return b) := by
  intro e
  have ends := first e
  rw [EStateM.run_bind]
  cases ran : m.run e with
  | error err e' | ok a e' =>
      rw [ran] at ends
      exact ends

theorem modifySession_unseen {f : Session → Session}
    (keeps : ∀ s, (f s).sequenceId = s.sequenceId) : Respects Unseen (modifySession f) :=
  respects_modify fun e => ⟨rfl, keeps e.session⟩

theorem onStorage_unseen {α : Type} (body : StatementM α) : Respects Unseen (onStorage body) := by
  intro e
  cases ran : body.run e.storage with
  | ok a s =>
      rw [onStorage_ok ran]
      exact ⟨rfl, rfl⟩
  | error p s =>
      rw [onStorage_error ran]
      exact ⟨rfl, rfl⟩

theorem sendOk_responds (p : OkPacket) : Responds (sendOk p) := by
  intro e
  rw [sendOk_run]
  exact .inr ⟨_, numberedFrom_packet _ p.payload, rfl⟩

theorem sendErr_responds (p : ErrPacket) : Responds (sendErr p) := by
  intro e
  rw [sendErr_run]
  exact .inr ⟨_, numberedFrom_packet _ p.payload, rfl⟩

theorem answer_responds (body : StatementM OkPacket) : Responds (answer body) := by
  apply Responds.after (onStorage_unseen body)
  intro result
  cases result with
  | ok p => exact sendOk_responds p
  | error p => exact sendErr_responds p

/-! ## Statements and commands -/

theorem encodeResultSet_sameEvents (result : SelectResult) (tableName dbName : Bytes) :
    Respects SameEvents (encodeResultSet result tableName dbName) := by
  have counts : Respects SameEvents nextSequenceId := fun e => rfl
  exact respects_encodeResultSet counts result tableName dbName

theorem executeSelect_responds (stmt : SelectStatement) : Responds (executeSelect stmt) := by
  intro e
  have unchanged := selectRows_ends stmt e.session.currentDatabase e.storage
  cases ends : (selectRows stmt e.session.currentDatabase).run e.storage with
  | error p s =>
      rw [executeSelect_refused ends]
      exact sendErr_responds p { e with storage := s }
  | ok result s =>
      obtain rfl : s = e.storage := by
        rcases unchanged with ⟨p, stops⟩ | ⟨table, columns, kept, -, -, -, returns⟩
        · rw [ends] at stops
          cases stops
        · rw [ends] at returns
          exact (EStateM.Result.ok.inj returns).2
      cases encoded : (encodeResultSet result stmt.tableName e.session.currentDatabase).run e with
      | ok response e₁ =>
          obtain ⟨e', response, ran, events, shown⟩ :=
            executeSelect_sends ends (encodeResultSet_inside _ _ _ _ _ _ encoded)
          rw [ran]
          exact .inr ⟨response, ⟨_, List.cons_ne_nil _ _, shown⟩, events⟩
      | error err e₁ =>
          have same := encodeResultSet_sameEvents result stmt.tableName e.session.currentDatabase e
          rw [encoded] at same
          refine .inl ?_
          simp only [executeSelect, EStateM.run_bind, EStateM.run_get, onStorage_ok ends, encoded]
          exact same

theorem executeUseDatabase_responds (databaseName : Bytes) :
    Responds (executeUseDatabase databaseName) :=
  Responds.after (modifySession_unseen fun _ => rfl) fun _ => sendOk_responds _

theorem execute_responds (stmt : Statement) : Responds (execute stmt) := by
  intro e
  rw [execute, run_get_bind]
  cases stmt with
  | select stmt => exact executeSelect_responds stmt e
  | useDatabase databaseName => exact executeUseDatabase_responds databaseName e
  | _ => exact answer_responds _ e

theorem handleQuery_responds (query : Bytes) : Responds (handleQuery query) := by
  unfold handleQuery
  split
  · exact fun e => .inl rfl
  · exact sendErr_responds _
  · exact sendOk_responds _
  · exact execute_responds _

theorem commandBody_responds (cmdByte : UInt8) (text : Bytes) :
    Responds (commandBody cmdByte text) := by
  unfold commandBody
  split
  · exact sendOk_responds _
  · exact Responds.after (modifySession_unseen fun _ => rfl) fun _ e => .inl rfl
  · exact handleQuery_responds text
  · exact Responds.after (modifySession_unseen fun _ => rfl) fun _ => sendOk_responds _
  · exact (sendErr_responds _).before_return false

/-- No command is answered with the sequence ids behind its own: every response to it is a run of
packets that starts again at the id of the command. -/
theorem dispatch_never_follows {b : Buffer} {sequenceId cmdByte : UInt8} {rest tail : Bytes}
    (short : (cmdByte :: rest).length < 2 ^ 24)
    (shown : b.readable = packet sequenceId (cmdByte :: rest) ++ tail) (e : Exec) {added : List Event}
    (events : (final (dispatch.run ⟨b, e⟩)).exec.events = e.events ++ added) {response : Bytes}
    (answered : Event.respond response ∈ added) :
    NumberedFrom sequenceId response ∧ ¬ FollowsCommand sequenceId response := by
  have exec : (final (dispatch.run ⟨b, e⟩)).exec =
      final ((commandBody cmdByte (rest ++ tail)).run (e.received sequenceId)) := by
    rw [dispatch_run short shown, onExec_run]
    cases (commandBody cmdByte (rest ++ tail)).run (e.received sequenceId) <;> rfl
  rw [exec] at events
  rcases commandBody_responds cmdByte (rest ++ tail) (e.received sequenceId) with
    same | ⟨sent, numbered, ends⟩
  · obtain rfl : added = [] := List.self_eq_append_right.mp (same.symm.trans events)
    cases answered
  · obtain rfl := List.append_cancel_left (events.symm.trans ends)
    have only : response = sent := by simpa using answered
    rw [only]
    exact ⟨numbered, numbered.not_followsCommand⟩

theorem ping_shown : (Buffer.ofBytes pingPacket).readable = packet 0 [COM_PING] ++ [] := by decide

def pong : Bytes := packet 0 (okPacket 0 []).payload

theorem ping_events : (final (dispatch.run ⟨Buffer.ofBytes pingPacket, authenticatedExec⟩)).exec.events
    = [.respond pong, .send pong] := by
  rw [dispatch_run (by decide) ping_shown, onExec_run]
  have ran : (commandBody COM_PING ([] ++ [])).run (authenticatedExec.received 0) =
      .ok true _ := sendOk_run (okPacket 0 []) (authenticatedExec.received 0)
  rw [ran]
  rfl

theorem ping_never_follows : NumberedFrom 0 pong ∧ ¬ FollowsCommand 0 pong :=
  dispatch_never_follows (by decide) ping_shown authenticatedExec ping_events List.mem_cons_self

/-- A COM_PING with the sequence id 0 is answered with an OK packet with the sequence id 0. -/
theorem ping_id_repeated : ¬ ∀ (b : Buffer) (sequenceId cmdByte : UInt8) (rest : Bytes) (e : Exec)
    (added : List Event) (response : Bytes), e.session.isAuthenticated = true →
      (cmdByte :: rest).length < 2 ^ 24 → b.readable = packet sequenceId (cmdByte :: rest) →
      (final (dispatch.run ⟨b, e⟩)).exec.events = e.events ++ added →
      Event.respond response ∈ added → FollowsCommand sequenceId response := by
  intro all
  have follows := all _ 0 COM_PING [] authenticatedExec _ pong rfl (by decide) (by decide) ping_events
    List.mem_cons_self
  exact (numberedFrom_packet 0 _).not_followsCommand follows

end TinySql
