import TinySql.Command.FailedStatements
import TinySql.Command.Totality
import TinySql.Network.ClientIsolation
import TinySql.Network.Login
import TinySql.Protocol.Exceptions

/-!
# What clients can change

All that arrives from clients, in whatever order, changes the storage by the statements that the
parser makes of the queries among it. It makes no INSERT, so no table ever gets a row.
-/

namespace TinySql
open Buffer Frame MySQLCommand Run StorageEngine TcpConnection TinySql.Parser

/-! ## Queries and their changes -/

/-- The text of a COM_QUERY, and the current database of the session that has sent it. -/
structure Query where
  text : Bytes
  dbName : Bytes

def Statement.change (dbName : Bytes) : Statement → Option Change
  | .createTable stmt => some (.createTable stmt dbName)
  | .insert stmt => some (.insert stmt dbName)
  | .dropTable tableName => some (.dropTable tableName dbName)
  | .select _ | .showTables | .showDatabases | .useDatabase _ => none

/-- The change of the storage that the parser reads from the text, if it reads one. -/
def Query.change (q : Query) : Option Change :=
  match parseQuery (trim q.text) with
  | .ok (some stmt, []) => stmt.change q.dbName
  | _ => none

/-- The query that `handleData` finds in this state: a COM_QUERY in a packet that is whole, of a
session that is logged in. Its text goes up to the end of the buffer. -/
def Context.query (c : Context) : Option Query :=
  if c.exec.session.isAuthenticated = true ∧
      (4 ≤ c.buffer.readableBytes ∧
        4 + payloadLength c.buffer.readable ≤ c.buffer.readableBytes) ∧
      1 ≤ payloadLength c.buffer.readable ∧ c.buffer.readable[4]? = some COM_QUERY then
    some ⟨c.buffer.readable.drop 5, c.exec.session.currentDatabase⟩
  else none

/-! ## The storage behind a computation -/

def SameStorage (e e' : Exec) : Prop := e'.storage = e.storage

instance : Std.Refl SameStorage where
  refl _ := rfl

instance : IsTrans Exec SameStorage where
  trans _ _ _ first second := Eq.trans second first

section SameStorage
variable {sha1 : Bytes → Vector UInt8 20}

theorem emit_sameStorage (event : TinySql.Event) : Respects SameStorage (emit event) :=
  respects_modify fun _ => rfl

theorem modifySession_sameStorage (f : Session → Session) :
    Respects SameStorage (modifySession f) := respects_modify fun _ => rfl

theorem nextSequenceId_sameStorage : Respects SameStorage nextSequenceId :=
  respects_get.bind fun _ => (modifySession_sameStorage _).bind fun _ => respects_pure _

theorem sendOk_sameStorage (p : OkPacket) : Respects SameStorage (sendOk p) :=
  respects_sendOk nextSequenceId_sameStorage (fun event _ => emit_sameStorage event) p

theorem sendErr_sameStorage (p : ErrPacket) : Respects SameStorage (sendErr p) :=
  respects_sendErr nextSequenceId_sameStorage (fun event _ => emit_sameStorage event) p

theorem sendResponse_sameStorage (response : Buffer) :
    Respects SameStorage (sendResponse response) := by
  unfold sendResponse
  split
  · exact emit_sameStorage _
  · exact respects_pure ()

theorem finishAuthentication_sameStorage (p : HandshakeResponse41Packet) :
    Respects SameStorage (finishAuthentication sha1 p) := by
  intro e
  rw [finishAuthentication_run]
  split <;> rfl

theorem handleAuthentication_sameStorage :
    Respects (OutsideBuffer SameStorage) (handleAuthentication sha1) := by
  refine (respects_onBuffer _).bind fun decoded => ?_
  cases decoded with
  | none => exact (respects_onExec (sendResponse_sameStorage _)).bind fun _ => respects_pure false
  | some p => exact respects_onExec (finishAuthentication_sameStorage p)

theorem storage_onStorage {α : Type} (body : StatementM α) (e : Exec) :
    (final ((onStorage body).run e)).storage = final (body.run e.storage) := by
  cases ran : body.run e.storage with
  | ok a s => rw [onStorage_ok ran]; rfl
  | error p s => rw [onStorage_error ran]; rfl

theorem storage_answer (body : StatementM OkPacket) (e : Exec) :
    (final ((answer body).run e)).storage = final (body.run e.storage) := by
  cases ran : body.run e.storage with
  | ok p s => rw [answer_run_ok ran]; rfl
  | error p s => rw [answer_run_error ran]; rfl

theorem executeSelect_sameStorage (stmt : SelectStatement) :
    Respects SameStorage (executeSelect stmt) := by
  apply respects_executeSelect nextSequenceId_sameStorage fun event _ => emit_sameStorage event
  intro dbName e
  exact (storage_onStorage _ e).trans (final_selectRows stmt dbName e.storage)

end SameStorage

/-! ## The changes that commands make -/

/-- However the command ends, it has made the change of this query, or none. -/
def Makes (change : Bytes → Option Change) (m : ExecM Bool) : Prop :=
  ∀ e, Runs Change.Step e.storage (change e.session.currentDatabase).toList
    (final (m.run e)).storage

theorem runs_of_same {s s' : StorageEngine} (same : s' = s) : Runs Change.Step s [] s' := by
  subst same
  exact .nil s'

theorem answer_changes (c : Change) (e : Exec) :
    Runs Change.Step e.storage [c] (final ((answer c.body).run e)).storage :=
  .cons (storage_answer c.body e).symm (.nil _)

theorem answer_reads {body : StatementM OkPacket} (reads : ∀ s, final (body.run s) = s) (e : Exec) :
    Runs Change.Step e.storage [] (final ((answer body).run e)).storage :=
  runs_of_same ((storage_answer body e).trans (reads e.storage))

theorem execute_makes (stmt : Statement) : Makes (fun dbName => stmt.change dbName) (execute stmt) := by
  intro e
  rw [execute, run_get_bind]
  cases stmt with
  | select stmt => exact runs_of_same (executeSelect_sameStorage stmt e)
  | insert stmt => exact answer_changes (.insert stmt e.session.currentDatabase) e
  | createTable stmt => exact answer_changes (.createTable stmt e.session.currentDatabase) e
  | dropTable tableName => exact answer_changes (.dropTable tableName e.session.currentDatabase) e
  | showTables => exact answer_reads (final_executeShowTables e.session.currentDatabase) e
  | showDatabases => exact answer_reads (fun _ => rfl) e
  | useDatabase databaseName =>
      have same : Respects SameStorage (executeUseDatabase databaseName) :=
        (modifySession_sameStorage _).bind fun _ => sendOk_sameStorage _
      exact runs_of_same (same e)

theorem handleQuery_makes (query : Bytes) :
    Makes (fun dbName => Query.change ⟨query, dbName⟩) (handleQuery query) := by
  intro e
  unfold handleQuery Query.change
  dsimp only
  cases parseQuery (trim query) with
  | error err => exact .nil e.storage
  | ok result =>
      obtain ⟨stmt, errors⟩ := result
      cases errors with
      | cons error rest => cases stmt <;> exact runs_of_same (sendErr_sameStorage _ e)
      | nil =>
          cases stmt with
          | none => exact runs_of_same (sendOk_sameStorage _ e)
          | some stmt => exact execute_makes stmt e

theorem commandBody_sameStorage {cmdByte : UInt8} (other : cmdByte ≠ COM_QUERY) (text : Bytes) :
    Respects SameStorage (commandBody cmdByte text) := by
  unfold commandBody
  split
  · exact sendOk_sameStorage _
  · exact (modifySession_sameStorage _).bind fun _ => respects_pure true
  · exact absurd rfl other
  · exact (modifySession_sameStorage _).bind fun _ => sendOk_sameStorage _
  · exact (sendErr_sameStorage _).bind fun _ => respects_pure false

/-! ## The changes of a call of `handleData` -/

section Call
variable {sha1 : Bytes → Vector UInt8 20} {b : Buffer} {e : Exec}

theorem query_of_packet {p : ClientPacket} {tail : Bytes}
    (authenticated : e.session.isAuthenticated = true) (shown : b.readable = p.bytes ++ tail) :
    Context.query ⟨b, e⟩ = match p.payload with
      | [] => none
      | cmdByte :: rest =>
          if cmdByte = COM_QUERY then some ⟨rest ++ tail, e.session.currentDatabase⟩ else none := by
  have whole := whole_packet shown
  have told : payloadLength b.readable = p.payload.length := by
    rw [shown, ClientPacket.bytes, payloadLength_packet _ _ _ p.short]
  have behind : b.readable.drop 4 = p.payload ++ tail := by
    rw [← List.drop_drop (i := 1) (j := 3), shown, ClientPacket.bytes, drop_packet]
    rfl
  have command : b.readable[4]? = (p.payload ++ tail).head? := by rw [← List.head?_drop, behind]
  have text : b.readable.drop 5 = (p.payload ++ tail).tail := by
    rw [← List.drop_drop (i := 1) (j := 4), behind, List.drop_one]
  rw [told] at whole
  simp only [Context.query, authenticated, told, whole.1, whole.2, command, text, true_and]
  cases p.payload with
  | nil => simp
  | cons cmdByte rest => simp

/-- Without a login there is no query, and the storage stays. -/
theorem handleData_sameStorage (outside : ¬ e.session.isAuthenticated = true) :
    (final ((handleData sha1).run ⟨b, e⟩)).exec.storage = e.storage := by
  rw [handleData_run]
  split
  · cases state : e.session.state with
    | handshakeSent => exact handleAuthentication_sameStorage ⟨b, e⟩
    | authenticated | commandPhase => simp [Session.isAuthenticated, state] at outside
    | _ => rfl
  · rfl

theorem messageCallback_exec (c : Context) :
    (messageCallback sha1 c).context.exec = (final ((handleData sha1).run c)).exec := by
  rw [messageCallback]
  cases (handleData sha1).run c <;> rfl

/-- A call of `handleData` changes the storage by what it finds of a query. -/
theorem messageCallback_changes (c : Context) :
    Runs Change.Step c.exec.storage (c.query.bind Query.change).toList
      (messageCallback sha1 c).context.exec.storage := by
  obtain ⟨b, e⟩ := c
  by_cases authenticated : e.session.isAuthenticated = true
  · by_cases whole : 4 ≤ b.readableBytes ∧ 4 + payloadLength b.readable ≤ b.readableBytes
    · obtain ⟨p, tail, shown⟩ := exists_clientPacket whole.2
      rw [query_of_packet authenticated shown, messageCallback_command authenticated shown]
      dsimp only
      rw [settle_exec]
      cases p.payload with
      | nil => exact .nil e.storage
      | cons cmdByte rest =>
          dsimp only
          split
          · rename_i query
            have body : packetBody (cmdByte :: rest) tail = handleQuery (rest ++ tail) := by
              rw [query, packetBody]
              rfl
            rw [body, Option.bind_some]
            exact handleQuery_makes (rest ++ tail) (e.dispatched p)
          · rename_i other
            exact runs_of_same (commandBody_sameStorage other (rest ++ tail) (e.dispatched p))
    · have none : Context.query ⟨b, e⟩ = none := if_neg fun found => whole found.2.1
      rw [none, messageCallback_short whole]
      exact .nil e.storage
  · have none : Context.query ⟨b, e⟩ = none := if_neg fun found => authenticated found.1
    rw [none, messageCallback_exec]
    exact runs_of_same (handleData_sameStorage authenticated)

end Call

/-! ## The changes of a run -/

namespace Clients

variable {sha1 : Bytes → Vector UInt8 20} {s s' : Clients}

/-- The query that is dispatched in this step. -/
def query (s : Clients) : Event → Option Query
  | .data fd chunk block => (s.client fd).bind fun c => (received chunk block s.storage c).query
  | .accept _ _ | .endOfFile _ => none

/-- The queries of all clients that are dispatched in this run, in their order. -/
def queries (sha1 : Bytes → Vector UInt8 20) (s : Clients) : List Event → List Query
  | [] => []
  | e :: rest => (s.body sha1 e).elim [] fun s' => (s.query e).toList ++ queries sha1 s' rest

theorem Step.changes {e : Event} (step : Step sha1 s e s') :
    Runs Change.Step s.storage ((s.query e).bind Query.change).toList s'.storage := by
  obtain ⟨-, served⟩ := step_iff.mp step
  cases e with
  | accept fd challenge =>
      obtain ⟨-, rfl⟩ := accept_eq_some.mp served
      exact .nil s.storage
  | data fd chunk block =>
      obtain ⟨c, here, -, -, rfl⟩ := data_eq_some.mp served
      rw [storage_handled, query, here, Option.bind_some]
      exact messageCallback_changes (received chunk block s.storage c)
  | endOfFile fd =>
      obtain ⟨c, -, -, rfl⟩ := endOfFile_eq_some.mp served
      exact .nil s.storage

theorem changes_of_runs {run : List Event} (runs : Runs (Step sha1) s run s') :
    Runs Change.Step s.storage ((queries sha1 s run).filterMap Query.change) s'.storage := by
  induction runs with
  | nil s => exact .nil s.storage
  | @cons s s' s'' e rest step _ ih =>
      have first := Step.changes step
      have split : (queries sha1 s (e :: rest)).filterMap Query.change =
          ((s.query e).bind Query.change).toList ++
            (queries sha1 s' rest).filterMap Query.change := by
        rw [queries, show s.body sha1 e = some s' from step, Option.elim_some, List.filterMap_append]
        cases s.query e with
        | none => rfl
        | some q => cases reads : q.change <;> simp [reads]
      rw [split]
      exact first.append ih

end Clients

/-! ## No INSERT -/

theorem change_ne_insert (q : Query) (stmt : InsertStatement) (dbName : Bytes) :
    q.change ≠ some (.insert stmt dbName) := by
  intro inserts
  unfold Query.change at inserts
  rcases parseQuery_cases (trim q.text) with ⟨-, throws⟩ | ⟨-, stmt', errors, returned, shape⟩
  · rw [throws] at inserts
    cases inserts
  · rw [returned] at inserts
    rcases shape with plain | ⟨tableName, limit, rfl⟩
    · cases errors with
      | cons error rest => cases stmt' <;> cases inserts
      | nil =>
          cases stmt' with
          | none => cases inserts
          | some stmt' =>
              cases stmt' with
              | insert stmt' => exact plain
              | _ => cases inserts
    · cases errors <;> cases inserts

theorem change_createTable {q : Query} {stmt : CreateTableStatement} {dbName : Bytes}
    (creates : q.change = some (.createTable stmt dbName)) : dbName = q.dbName := by
  unfold Query.change at creates
  split at creates
  · rename_i stmt' _
    cases stmt' <;> cases creates
    rfl
  · cases creates

/-- A table as the CREATE TABLE of one of these queries has made it. -/
def Table.New (asked : List Query) (t : Table) : Prop :=
  ∃ q ∈ asked, ∃ stmt, q.change = some (.createTable stmt q.dbName) ∧ t = newTable stmt

section New
variable {asked : List Query} {s s' : StorageEngine}

theorem Query.change_new {q : Query} {c : Change} (member : q ∈ asked) (reads : q.change = some c)
    (step : Change.Step s c s') (every : s.Every (Table.New asked)) :
    s'.Every (Table.New asked) := by
  subst step
  cases c with
  | insert stmt dbName => exact absurd reads (change_ne_insert q stmt dbName)
  | dropTable tableName dbName => exact every_dropTable tableName dbName every
  | createTable stmt dbName =>
      obtain rfl := change_createTable reads
      by_cases named : q.dbName = []
      · rw [named]
        exact every
      · obtain ⟨db, s', held, here, keeps⟩ := getOrCreateDatabase_cases s q.dbName
        have run : (Change.createTable stmt q.dbName).body.run s = _ :=
          executeCreateTable_run named held
        rw [run]
        split
        · exact keeps _ every
        · exact (keeps _ every).setTable here ⟨q, member, stmt, reads, rfl⟩

theorem every_new {changes : List Change} (runs : Runs Change.Step s changes s')
    (read : ∀ c ∈ changes, ∃ q ∈ asked, q.change = some c) (every : s.Every (Table.New asked)) :
    s'.Every (Table.New asked) := by
  induction runs with
  | nil s => exact every
  | cons first _ ih =>
      obtain ⟨⟨q, member, reads⟩, later⟩ := List.forall_mem_cons.mp read
      exact ih later (Query.change_new member reads first every)

theorem selectRows_new {stmt : SelectStatement} {dbName : Bytes} {result : SelectResult}
    (every : s.Every (Table.New asked)) (ran : (selectRows stmt dbName).run s = .ok result s') :
    result.rows = [] := by
  obtain ⟨table, found, stored, -⟩ := selectRows_ok ran
  obtain ⟨q, -, create, -, rfl⟩ := every _ _ _ found
  rw [newTable_rows] at stored
  exact List.eq_nil_iff_forall_not_mem.mpr fun row member => List.not_mem_nil (stored row member)

end New

namespace Clients

/-- Whatever clients send to a new server, in whatever order: the storage is what the statements that
the parser reads from their queries make of it, one after the other; none of them is an INSERT, each
table is as the CREATE TABLE of one of the queries has made it, and no SELECT ever finds a row. -/
theorem no_row_arrives (sha1 : Bytes → Vector UInt8 20) (run : List Event) (s : Clients)
    (runs : Runs (Step sha1) (start initial) run s) :
    let asked := queries sha1 (start initial) run
    Runs Change.Step initial (asked.filterMap Query.change) s.storage ∧
    (∀ stmt dbName, .insert stmt dbName ∉ asked.filterMap Query.change) ∧
    s.storage.Every (Table.New asked) ∧
    ∀ stmt dbName result storage, (selectRows stmt dbName).run s.storage = .ok result storage →
      result.rows = [] := by
  intro asked
  have changed := changes_of_runs runs
  have every : s.storage.Every (Table.New asked) :=
    every_new changed (fun c member => List.mem_filterMap.mp member) every_initial
  refine ⟨changed, fun stmt dbName member => ?_, every,
    fun stmt dbName result storage => selectRows_new every⟩
  obtain ⟨q, -, reads⟩ := List.mem_filterMap.mp member
  exact change_ne_insert q stmt dbName reads

/-- A client makes a table, and tries to put a row into it. -/
def oneInsert : List Event :=
  [.accept 3 (.replicate 20 0), .data 3 rootResponse.bytes fun _ => 0,
    .data 3 (packet 0 (2 :: ascii "test")) fun _ => 0,
    .data 3 (packet 0 (3 :: ascii "CREATE TABLE t (a INT)")) fun _ => 0,
    .data 3 (packet 0 (3 :: ascii "INSERT INTO t VALUES (1)")) fun _ => 0]

theorem oneInsert_ignored : ∃ s : Clients,
    (s.storage.getTable (ascii "test") (ascii "t")).isSome ∧
    s.storage.Every (Table.New (queries (fun _ => .replicate 20 0) (start initial) oneInsert)) := by
  have lives : ((oneInsert.foldlM (body fun _ => .replicate 20 0) (start .initial)).any
      fun s => (s.storage.getTable (ascii "test") (ascii "t")).isSome) := by
    decide +kernel
  obtain ⟨s, ends, made⟩ := (Option.any_eq_true _ _).mp lives
  exact ⟨s, made, (no_row_arrives _ oneInsert s (runs_of_foldlM ends)).2.2.1⟩

end Clients

end TinySql
