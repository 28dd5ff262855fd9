import TinySql.Command.CommandFrame
import TinySql.Command.SelectAnswer
import TinySql.Protocol.Classification

/-!
# Answers of one packet

Every statement but SELECT runs to its end, or to an ERR packet, and is then answered by one packet.
Its first payload byte tells which it was.
-/

namespace TinySql
open Buffer Frame ResultSet Wire

theorem sendOk_run (p : OkPacket) (e : Exec) :
    (sendOk p).run e = .ok true (e.responded (packet e.session.sequenceId p.payload)) := by
  have sound := p.encode_sound e.session.sequenceId Sound.empty
  have more : (p.encode e.session.sequenceId Buffer.empty).readable ≠ [] := by
    rw [sound.readable]
    simp [packet, le]
  simp only [sendOk, encodeNext, EStateM.run_bind, nextSequenceId_run, EStateM.run_pure,
    responseCallback_run more, sound.readable]
  rfl

section Answer
variable {body : StatementM OkPacket} {e : Exec} {s : StorageEngine}

theorem answer_run_ok {p : OkPacket} (ran : body.run e.storage = .ok p s) : (answer body).run e =
    .ok true (Exec.responded (packet e.session.sequenceId p.payload) { e with storage := s }) := by
  rw [answer, run_bind_ok (onStorage_ok ran)]
  exact sendOk_run p _

theorem answer_run_error {p : ErrPacket} (ran : body.run e.storage = .error p s) :
    (answer body).run e =
      .ok true (Exec.responded (packet e.session.sequenceId p.payload) { e with storage := s }) := by
  rw [answer, run_bind_ok (onStorage_error ran)]
  exact sendErr_run p _

end Answer

/-- The computation calls the response callback with an ERR packet. -/
def ErrSent (m : ExecM Bool) (e : Exec) : Prop :=
  ∃ response, .respond response ∈ (final (m.run e)).events.drop e.events.length ∧
    response[4]? = some 0xFF

section ErrSent
variable {m : ExecM Bool} {e e' : Exec} {bytes : Bytes}

theorem errSent_of_responded (ran : m.run e = .ok true (e'.responded bytes))
    (before : e'.events = e.events) : ErrSent m e ↔ bytes[4]? = some 0xFF := by
  have events : (final (m.run e)).events.drop e.events.length = [.respond bytes, .send bytes] := by
    rw [ran, ← before]
    exact List.drop_left
  rw [ErrSent, events]
  simp

theorem errSent_answer_error {body : StatementM OkPacket} {p : ErrPacket} {s : StorageEngine}
    (ran : body.run e.storage = .error p s) : ErrSent (answer body) e := by
  apply (errSent_of_responded (answer_run_error ran) rfl).mpr
  exact p.first _

theorem not_errSent_answer_ok {body : StatementM OkPacket} {p : OkPacket} {s : StorageEngine}
    (ran : body.run e.storage = .ok p s) : ¬ ErrSent (answer body) e := by
  rw [errSent_of_responded (answer_run_ok ran) rfl, p.first]
  decide

end ErrSent

/-! ## Statements -/

theorem execute_insert_run (stmt : InsertStatement) (e : Exec) : (execute (.insert stmt)).run e =
    (answer (executeInsert stmt e.session.currentDatabase)).run e := by
  rw [execute, run_get_bind]

theorem execute_createTable_run (stmt : CreateTableStatement) (e : Exec) :
    (execute (.createTable stmt)).run e =
      (answer (executeCreateTable stmt e.session.currentDatabase)).run e := by
  rw [execute, run_get_bind]

theorem execute_dropTable_run (tableName : Bytes) (e : Exec) :
    (execute (.dropTable tableName)).run e =
      (answer (executeDropTable tableName e.session.currentDatabase)).run e := by
  rw [execute, run_get_bind]

def Exec.selected (databaseName : Bytes) (e : Exec) : Exec :=
  { e with session := { e.session with currentDatabase := databaseName } }

def databaseChanged (databaseName : Bytes) : OkPacket :=
  okPacket 0 (ascii "Database changed to: " ++ databaseName)

theorem execute_useDatabase_run (databaseName : Bytes) (e : Exec) :
    (execute (.useDatabase databaseName)).run e = .ok true (Exec.responded
      (packet e.session.sequenceId (databaseChanged databaseName).payload)
        (e.selected databaseName)) := by
  rw [execute, run_get_bind]
  dsimp only
  rw [executeUseDatabase, run_bind_ok (modifySession_run _ e)]
  exact sendOk_run (databaseChanged databaseName) (e.selected databaseName)

end TinySql
