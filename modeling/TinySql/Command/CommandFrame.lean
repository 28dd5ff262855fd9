import TinySql.Command.CommandHandler
import TinySql.Lib.Frame

/-!
# What commands leave alone

Executing a command changes neither the user of the session nor its challenge, moves its state only
to CLOSING, and adds only responses to what has been done.
-/

namespace TinySql
open Frame

def Event.isOutput : Event → Bool
  | .respond _ | .send _ => true
  | .authenticate _ _ _ _ | .dispatch => false

structure CommandStep (e e' : Exec) : Prop where
  username : e'.session.username = e.session.username
  challenge : e'.session.authPluginData = e.session.authPluginData
  state : e'.session.state = e.session.state ∨ e'.session.state = .closing
  events : ∃ new, e'.events = e.events ++ new ∧ ∀ event ∈ new, event.isOutput = true

instance : Std.Refl CommandStep where
  refl e := ⟨rfl, rfl, .inl rfl, [], by simp, by simp⟩

instance : IsTrans Exec CommandStep where
  trans e e' e'' first second := by
    obtain ⟨new, added, output⟩ := first.events
    obtain ⟨new', added', output'⟩ := second.events
    refine ⟨second.username.trans first.username, second.challenge.trans first.challenge, ?_,
      new ++ new', by rw [added', added, List.append_assoc], ?_⟩
    · rcases second.state with same | closing
      · rw [same]
        exact first.state
      · exact .inr closing
    · intro event member
      rcases List.mem_append.mp member with here | here
      · exact output event here
      · exact output' event here

abbrev Quiet {α : Type} (m : ExecM α) : Prop := Respects CommandStep m

theorem emit_quiet {event : Event} (output : event.isOutput = true) : Quiet (emit event) :=
  respects_modify fun _ => ⟨rfl, rfl, .inl rfl, [event], rfl, by simpa using output⟩

theorem modifySession_quiet {f : Session → Session} (keeps : ∀ s, (f s).username = s.username ∧
    (f s).authPluginData = s.authPluginData ∧ ((f s).state = s.state ∨ (f s).state = .closing)) :
    Quiet (modifySession f) := by
  refine respects_modify fun e => ?_
  obtain ⟨username, challenge, state⟩ := keeps e.session
  exact ⟨username, challenge, state, [], by simp, by simp⟩

theorem nextSequenceId_quiet : Quiet nextSequenceId := by
  refine respects_get.bind fun _ => Respects.bind (modifySession_quiet fun _ => ?_) fun _ =>
    respects_pure _
  exact ⟨rfl, rfl, .inl rfl⟩

/-! ## Responses

A response takes sequence ids and emits events; a step that both of these respect, and what a
statement does to the storage, is respected by every answer. -/

section Responses
variable {R : Exec → Exec → Prop} [Std.Refl R] [IsTrans Exec R]
  (counts : Respects R nextSequenceId)
  (emits : ∀ event, event.isOutput = true → Respects R (emit event))

include counts in
theorem respects_encodeNext (encode : UInt8 → Buffer → Buffer) (response : Buffer) :
    Respects R (encodeNext encode response) :=
  counts.bind fun _ => respects_pure _

include emits in
theorem respects_responseCallback (response : Buffer) : Respects R (responseCallback response) := by
  apply Respects.bind (emits _ rfl)
  intro _
  unfold sendResponse
  split
  · exact emits _ rfl
  · exact respects_pure ()

include counts emits

theorem respects_sendErr (p : ErrPacket) : Respects R (sendErr p) :=
  (respects_encodeNext counts _ _).bind fun _ =>
    (respects_responseCallback emits _).bind fun _ => respects_pure _

theorem respects_sendOk (p : OkPacket) : Respects R (sendOk p) :=
  (respects_encodeNext counts _ _).bind fun _ =>
    (respects_responseCallback emits _).bind fun _ => respects_pure _

theorem respects_answer {body : StatementM OkPacket} (runs : Respects R (onStorage body)) :
    Respects R (answer body) := by
  apply runs.bind
  intro result
  cases result with
  | ok p => exact respects_sendOk counts emits p
  | error p => exact respects_sendErr counts emits p

omit emits in
theorem respects_encodeResultSet (result : SelectResult) (tableName dbName : Bytes) :
    Respects R (encodeResultSet result tableName dbName) := by
  have cell (row : Row) (index : Nat) : Respects R (getValue row index) := by
    unfold getValue
    split
    · exact respects_pure _
    · exact respects_throw _
  have packets := respects_encodeNext counts
  have row (response : Buffer) (row : Row) : Respects R (do
      let projected ← result.indices.mapM (getValue row)
      encodeNext (TextResultRowPacket.encode projected) response) :=
    (respects_mapM (cell row) _).bind fun _ => packets _ _
  unfold encodeResultSet
  apply (packets _ _).bind
  intro response
  apply (respects_foldlM (fun _ _ => packets _ _) _ _).bind
  intro response
  apply (packets _ _).bind
  intro response
  exact (respects_foldlM row _ _).bind fun response => packets _ _

theorem respects_executeSelect {stmt : SelectStatement}
    (runs : ∀ dbName, Respects R (onStorage (selectRows stmt dbName))) :
    Respects R (executeSelect stmt) := by
  refine respects_get.bind fun e => (runs _).bind fun result => ?_
  cases result with
  | error p => exact respects_sendErr counts emits p
  | ok result =>
      exact (respects_encodeResultSet counts result _ _).bind fun response =>
        (respects_responseCallback emits _).bind fun _ => respects_pure _

end Responses

theorem onStorage_quiet {α : Type} (body : StatementM α) : Quiet (onStorage body) := by
  intro e
  have kept : (final ((onStorage body).run e)).session = e.session ∧
      (final ((onStorage body).run e)).events = e.events := by
    simp only [onStorage, EStateM.run]
    split <;> exact ⟨rfl, rfl⟩
  exact ⟨by rw [kept.1], by rw [kept.1], .inl (by rw [kept.1]), [], by rw [kept.2]; simp, by simp⟩

theorem sendErr_quiet (p : ErrPacket) : Quiet (sendErr p) :=
  respects_sendErr nextSequenceId_quiet (fun _ => emit_quiet) p

theorem sendOk_quiet (p : OkPacket) : Quiet (sendOk p) :=
  respects_sendOk nextSequenceId_quiet (fun _ => emit_quiet) p

theorem answer_quiet (body : StatementM OkPacket) : Quiet (answer body) :=
  respects_answer nextSequenceId_quiet (fun _ => emit_quiet) (onStorage_quiet body)

theorem executeSelect_quiet (stmt : SelectStatement) : Quiet (executeSelect stmt) :=
  respects_executeSelect nextSequenceId_quiet (fun _ => emit_quiet) fun _ => onStorage_quiet _

theorem executeUseDatabase_quiet (databaseName : Bytes) :
    Quiet (executeUseDatabase databaseName) := by
  refine Respects.bind (modifySession_quiet fun _ => ?_) fun _ => sendOk_quiet _
  exact ⟨rfl, rfl, .inl rfl⟩

theorem execute_quiet (stmt : Statement) : Quiet (execute stmt) := by
  refine respects_get.bind fun e => ?_
  cases stmt with
  | select stmt => exact executeSelect_quiet stmt
  | useDatabase databaseName => exact executeUseDatabase_quiet databaseName
  | _ => exact answer_quiet _

theorem handleQuit_quiet : Quiet handleQuit := by
  refine Respects.bind (modifySession_quiet fun _ => ?_) fun _ => respects_pure _
  exact ⟨rfl, rfl, .inr rfl⟩

theorem handleQuery_quiet (query : Bytes) : Quiet (handleQuery query) := by
  unfold handleQuery
  split
  · exact respects_throw _
  · exact sendErr_quiet _
  · exact sendOk_quiet _
  · exact execute_quiet _

theorem handleInitDb_quiet (database : Bytes) : Quiet (handleInitDb database) := by
  refine Respects.bind (modifySession_quiet fun _ => ?_) fun _ => sendOk_quiet _
  exact ⟨rfl, rfl, .inl rfl⟩

/-! ## Handlers with a buffer -/

def OutsideBuffer (R : Exec → Exec → Prop) (c c' : Context) : Prop := R c.exec c'.exec

instance {R : Exec → Exec → Prop} [Std.Refl R] : Std.Refl (OutsideBuffer R) where
  refl c := Std.Refl.refl (r := R) c.exec

instance {R : Exec → Exec → Prop} [IsTrans Exec R] : IsTrans Context (OutsideBuffer R) where
  trans _ _ _ first second := trans_of R first second

theorem respects_onBuffer {R : Exec → Exec → Prop} [Std.Refl R] {α : Type} (m : BufferM α) :
    Respects (OutsideBuffer R) (onBuffer m) := by
  intro c
  have same : (final ((onBuffer m).run c)).exec = c.exec := by
    rw [onBuffer_run]
    split <;> rfl
  rw [OutsideBuffer, same]
  exact Std.Refl.refl (r := R) c.exec

theorem respects_onExec {R : Exec → Exec → Prop} {α : Type} {m : ExecM α} (here : Respects R m) :
    Respects (OutsideBuffer R) (onExec m) := by
  intro c
  have ran := here c.exec
  rw [OutsideBuffer, onExec_run]
  cases run : m.run c.exec with
  | ok a e => rwa [run] at ran
  | error err e => rwa [run] at ran

theorem handleCommandByte_quiet (cmdByte : UInt8) :
    Respects (OutsideBuffer CommandStep) (handleCommandByte cmdByte) := by
  have all : Respects (OutsideBuffer CommandStep) readAll :=
    respects_get.bind fun _ => respects_onBuffer _
  unfold handleCommandByte
  split
  · exact respects_onExec (sendOk_quiet _)
  · exact respects_onExec handleQuit_quiet
  · exact all.bind fun query => respects_onExec (handleQuery_quiet query)
  · exact all.bind fun database => respects_onExec (handleInitDb_quiet database)
  · exact (respects_onExec (sendErr_quiet _)).bind fun _ => respects_pure _

theorem dispatch_quiet : Respects (OutsideBuffer CommandStep) dispatch := by
  refine respects_get.bind fun c => ?_
  split
  · exact respects_pure _
  · refine (respects_onBuffer _).bind fun _ => (respects_onBuffer _).bind fun _ => ?_
    refine Respects.bind (respects_onExec (modifySession_quiet fun _ => ?_)) fun _ => ?_
    · exact ⟨rfl, rfl, .inl rfl⟩
    · refine respects_get.bind fun c => ?_
      split
      · exact respects_pure _
      · split
        · exact respects_pure _
        · exact (respects_onBuffer _).bind fun cmdByte => handleCommandByte_quiet cmdByte

end TinySql
