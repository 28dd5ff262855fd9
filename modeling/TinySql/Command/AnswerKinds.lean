import TinySql.Command.CatalogRefinement
import TinySql.Command.Totality
import TinySql.Sql.ParserSoundness

/-!
# The kind of the answer to a command

A command that is handled without an exception gives one response to the callback. Its first byte
tells what it is as long as all payloads fit their packets and the table of a SELECT has columns.
-/

namespace TinySql
open Frame MySQLCommand ResultSet StorageEngine TinySql.Parser

/-! ## What has been asked for, and when its answer can be told -/

/-- The result set that a SELECT in this database asks for. -/
def Asked (dbName : Bytes) (s : StorageEngine) (stmt : SelectStatement) (rs : ResultSet) : Prop :=
  ∃ table positions, s.getTable dbName stmt.tableName = some table ∧
    fieldPositions table stmt.columns = some positions ∧
    rs = ⟨definitions (columnsAt table positions) stmt.tableName dbName,
      ((selectedRows stmt table).map (project positions)).map (·.map cellText)⟩

/-- The SELECT has columns to send, and their definitions and its rows fit. -/
def Sendable (dbName : Bytes) (stmt : SelectStatement) (table : Table) : Prop :=
  ∀ positions, fieldPositions table stmt.columns = some positions → positions ≠ [] ∧
    (∀ p ∈ definitions (columnsAt table positions) stmt.tableName dbName, Fits p.payload) ∧
    ∀ row ∈ selectedRows stmt table, Fits (rowPayload (project positions row))

/-- The answer to a statement that the parser makes can be told: what a message quotes leaves it
short enough, and the table of a SELECT is fit to be sent. -/
def Legible (dbName : Bytes) (s : StorageEngine) : Statement → Prop
  | .select stmt => dbName ≠ [] → match s.getDatabase dbName with
      | none => Fits (unknownDatabase dbName).payload
      | some db => match db.getTable stmt.tableName with
        | none => Fits (tableDoesntExist dbName stmt.tableName).payload
        | some table => Sendable dbName stmt table
  | .insert _ => True
  | .createTable stmt => dbName ≠ [] → (s.getTable dbName stmt.tableName).isSome →
      Fits (tableExists stmt.tableName).payload
  | .dropTable tableName => dbName ≠ [] → match s.getDatabase dbName with
      | none => Fits (unknownDatabase dbName).payload
      | some db => db.hasTable tableName = false → Fits (unknownTable tableName).payload
  | .showTables => dbName ≠ [] → ∀ db, s.getDatabase dbName = some db →
      Fits (okPacket 0 (tablesMessage dbName db.getTableNames)).payload
  | .showDatabases =>
      Fits (okPacket 0 (ascii "Databases: " ++ commaSeparated s.getDatabaseNames)).payload
  | .useDatabase databaseName => Fits (databaseChanged databaseName).payload

theorem legible_select {dbName : Bytes} {s : StorageEngine} {stmt : SelectStatement} {table : Table}
    (legible : Legible dbName s (.select stmt)) (named : dbName ≠ [])
    (found : s.getTable dbName stmt.tableName = some table) : Sendable dbName stmt table := by
  obtain ⟨db, here, there⟩ := Option.bind_eq_some_iff.mp found
  have sendable := legible named
  rw [here] at sendable
  dsimp only at sendable
  rwa [there] at sendable

def syntaxError (error : Bytes) : ErrPacket :=
  .create 1064 (ascii "42000") (ascii "SQL syntax error: " ++ error)

def QueryLegible (query dbName : Bytes) (s : StorageEngine) : Prop :=
  match parseQuery (trim query) with
  | .error _ => True
  | .ok (_, error :: _) => Fits (syntaxError error).payload
  | .ok (none, []) => True
  | .ok (some stmt, []) => Legible dbName s stmt

def QueryAsked (query dbName : Bytes) (s : StorageEngine) (rs : ResultSet) : Prop :=
  ∃ stmt, parseQuery (trim query) = .ok (some (.select stmt), []) ∧ Asked dbName s stmt rs

def CommandLegible (cmdByte : UInt8) (text : Bytes) (e : Exec) : Prop :=
  cmdByte = COM_QUERY → QueryLegible text e.session.currentDatabase e.storage

def CommandAsked (cmdByte : UInt8) (text : Bytes) (e : Exec) (rs : ResultSet) : Prop :=
  cmdByte = COM_QUERY ∧ QueryAsked text e.session.currentDatabase e.storage rs

/-! ## One response -/

/-- From the one state to the other there has been one response, and its first byte tells it. -/
def Answered (asked : ResultSet → Prop) (e e' : Exec) : Prop :=
  ∃ response, e'.events = e.events ++ [.respond response, .send response] ∧
    Classified asked response

section Answered
variable {asked : ResultSet → Prop} {e e' : Exec} {body : StatementM OkPacket} {s : StorageEngine}
  {kept : Bool}

theorem answered_iff {bytes : Bytes}
    (events : e'.events = e.events ++ [.respond bytes, .send bytes]) :
    Answered asked e e' ↔ Classified asked bytes := by
  constructor
  · rintro ⟨response, events', classified⟩
    obtain rfl : bytes = response := by
      have same := List.append_cancel_left (events.symm.trans events')
      simpa using same
    exact classified
  · exact fun classified => ⟨bytes, events, classified⟩

theorem sendOk_answered_iff {p : OkPacket} (ran : (sendOk p).run e = .ok kept e') :
    Answered asked e e' ↔ Fits p.payload := by
  rw [sendOk_run] at ran
  obtain ⟨-, rfl⟩ := EStateM.Result.ok.inj ran
  rw [answered_iff rfl, classified_ok_iff]

theorem sendErr_answered_iff {p : ErrPacket} (ran : (sendErr p).run e = .ok kept e') :
    Answered asked e e' ↔ Fits p.payload := by
  rw [sendErr_run] at ran
  obtain ⟨-, rfl⟩ := EStateM.Result.ok.inj ran
  rw [answered_iff rfl, classified_err_iff]

theorem answer_answered_ok {p : OkPacket} (ends : body.run e.storage = .ok p s)
    (ran : (answer body).run e = .ok kept e') : Answered asked e e' ↔ Fits p.payload := by
  rw [answer_run_ok ends] at ran
  obtain ⟨-, rfl⟩ := EStateM.Result.ok.inj ran
  rw [answered_iff rfl, classified_ok_iff]

theorem answer_answered_error {p : ErrPacket} (ends : body.run e.storage = .error p s)
    (ran : (answer body).run e = .ok kept e') : Answered asked e e' ↔ Fits p.payload := by
  rw [answer_run_error ends] at ran
  obtain ⟨-, rfl⟩ := EStateM.Result.ok.inj ran
  rw [answered_iff rfl, classified_err_iff]

end Answered

/-! ## SELECT -/

section Select
variable {e e' : Exec} {stmt : SelectStatement} {kept : Bool} {s : StorageEngine}

theorem asked_iff {dbName : Bytes} {table : Table} {positions : List Nat}
    (found : s.getTable dbName stmt.tableName = some table)
    (at_ : fieldPositions table stmt.columns = some positions) (rs : ResultSet) :
    Asked dbName s stmt rs ↔ rs = ⟨definitions (columnsAt table positions) stmt.tableName dbName,
      ((selectedRows stmt table).map (project positions)).map (·.map cellText)⟩ := by
  constructor
  · rintro ⟨table', positions', found', at_', rfl⟩
    obtain rfl := Option.some.inj (found.symm.trans found')
    obtain rfl := Option.some.inj (at_.symm.trans at_')
    rfl
  · exact fun same => ⟨table, positions, found, at_, same⟩

theorem select_answered_error {asked : ResultSet → Prop} {p : ErrPacket}
    (ends : (selectRows stmt e.session.currentDatabase).run e.storage = .error p s)
    (ran : (executeSelect stmt).run e = .ok kept e') : Answered asked e e' ↔ Fits p.payload := by
  rw [executeSelect_refused ends] at ran
  exact (sendErr_answered_iff ran : Answered asked { e with storage := s } e' ↔ Fits p.payload)

theorem select_answered_rows {table : Table} {positions : List Nat}
    (found : e.storage.getTable e.session.currentDatabase stmt.tableName = some table)
    (at_ : fieldPositions table stmt.columns = some positions)
    (same : (columnsAt table positions).length = positions.length)
    (count : positions.length < 2 ^ 64)
    (ends : (selectRows stmt e.session.currentDatabase).run e.storage =
      .ok ⟨columnsAt table positions, positions, selectedRows stmt table⟩ e.storage)
    (ran : (executeSelect stmt).run e = .ok kept e') :
    Answered (Asked e.session.currentDatabase e.storage stmt) e e' ↔
      Sendable e.session.currentDatabase stmt table := by
  have only := asked_iff found at_
  have length := length_definitions (columnsAt table positions) stmt.tableName
    e.session.currentDatabase
  have few : (columnsAt table positions).length < 2 ^ 64 := by rwa [same]
  have inside := executeSelect_inside ends ran
  obtain ⟨e₁, response, ran', sent, shown⟩ := executeSelect_sent ends few inside
  obtain ⟨-, rfl⟩ := EStateM.Result.ok.inj (ran.symm.trans ran')
  have widths : ∀ row ∈ (selectedRows stmt table).map (project positions), row.length =
      (definitions (columnsAt table positions) stmt.tableName e.session.currentDatabase).length := by
    intro row member
    rw [length, same, length_of_mem_projected member]
  rw [answered_iff sent, shown, funext fun rs => propext (only rs),
    classified_resultSet_iff (by rwa [length]) widths rfl, List.forall_mem_map,
    ← List.length_pos_iff, length, same, List.length_pos_iff]
  constructor
  · intro fit positions' at_'
    obtain rfl := Option.some.inj (at_.symm.trans at_')
    exact fit
  · exact fun sendable => sendable positions at_

theorem starStatement_rows {tableName dbName : Bytes} {limit : Int32} {db : Database} {table : Table}
    (named : dbName ≠ []) (here : s.getDatabase dbName = some db)
    (there : db.getTable tableName = some table) :
    ∃ result, (selectRows (starStatement tableName limit) dbName).run s = .ok result s := by
  have all (rows : List Row) : filterRows (matchesWhere none table.columns) rows = .ok rows := by
    induction rows with
    | nil => rfl
    | cons row rest ih =>
        rw [filterRows, ih]
        rfl
  have ran := @selectRows_run _ _ _ _ (starStatement tableName limit) named here there
  rw [ran]
  simp [starStatement, resolveColumns, all]

theorem star_answered_iff {tableName : Bytes} {limit : Int32}
    (counts : e.storage.Every fun t => t.columns.length < 2 ^ 64)
    (ran : (executeSelect (starStatement tableName limit)).run e = .ok kept e') :
    Answered (Asked e.session.currentDatabase e.storage (starStatement tableName limit)) e e' ↔
      Legible e.session.currentDatabase e.storage (.select (starStatement tableName limit)) := by
  by_cases named : e.session.currentDatabase = []
  · have ends : (selectRows (starStatement tableName limit) e.session.currentDatabase).run e.storage =
        .error noDatabaseSelected e.storage := by
      rw [named]
      rfl
    rw [select_answered_error ends ran]
    exact iff_of_true (by decide) fun other => absurd named other
  · simp only [Legible, ne_eq, named, not_false_eq_true, true_imp_iff]
    cases here : e.storage.getDatabase e.session.currentDatabase with
    | none =>
        have stops := selectedDatabase_absent named here
        have ends : (selectRows (starStatement tableName limit) e.session.currentDatabase).run
            e.storage = .error (unknownDatabase e.session.currentDatabase) e.storage := by
          simp only [selectRows, EStateM.run_bind, stops]
        exact select_answered_error ends ran
    | some db =>
        dsimp only
        cases there : db.getTable (starStatement tableName limit).tableName with
        | none =>
            have stops := @existingTable_absent e.storage e.session.currentDatabase _ _ there
            have ends : (selectRows (starStatement tableName limit) e.session.currentDatabase).run
                e.storage = .error (tableDoesntExist e.session.currentDatabase tableName)
                  e.storage := by
              simp only [selectRows, EStateM.run_bind, selectedDatabase_run named here, stops]
              rfl
            exact select_answered_error ends ran
        | some table =>
            have found : e.storage.getTable e.session.currentDatabase
                (starStatement tableName limit).tableName = some table := by
              rw [getTable_of_getDatabase here, there]
            obtain ⟨result, returns⟩ := @starStatement_rows _ tableName _ limit _ _ named here there
            rcases selectRows_cases found (Int32.le_refl 0) with
              ⟨p, stops⟩ | ⟨positions, at_, -, length, same, ends⟩
            · rw [returns] at stops
              cases stops
            · have count := counts _ _ _ found
              have few : positions.length < 2 ^ 64 := by
                rcases length with length | length
                · rwa [length]
                · rw [length]
                  exact Nat.one_lt_two_pow (by decide)
              exact select_answered_rows found at_ same few ends ran

end Select

/-! ## Statements, queries and commands -/

section Commands
variable {asked : ResultSet → Prop} {e e' : Exec} {kept : Bool}

theorem fits_okPacket : Fits (okPacket 0 []).payload := by decide

theorem fits_noDatabaseSelected : Fits noDatabaseSelected.payload := by decide

theorem unnamed_answered_iff {body : Bytes → StatementM OkPacket} {legible : Prop}
    (stops : ∀ s, (body []).run s = .error noDatabaseSelected s)
    (unnamed : e.session.currentDatabase = [])
    (ran : (answer (body e.session.currentDatabase)).run e = .ok kept e') :
    Answered asked e e' ↔ (e.session.currentDatabase ≠ [] → legible) := by
  have ends := stops e.storage
  rw [← unnamed] at ends
  rw [answer_answered_error ends ran]
  exact iff_of_true fits_noDatabaseSelected fun named => absurd unnamed named

theorem createTable_answered_iff {stmt : CreateTableStatement}
    (ran : (answer (executeCreateTable stmt e.session.currentDatabase)).run e = .ok kept e') :
    Answered asked e e' ↔ Legible e.session.currentDatabase e.storage (.createTable stmt) := by
  rw [Legible]
  by_cases named : e.session.currentDatabase = []
  · exact @unnamed_answered_iff _ _ _ _ (executeCreateTable stmt) _ (fun _ => rfl) named ran
  · have held := getOrCreateDatabase_eq e.storage e.session.currentDatabase
    cases here : e.storage.getDatabase e.session.currentDatabase with
    | some db =>
        rw [here] at held
        have ends := @executeCreateTable_run _ _ _ _ stmt named held
        have there : (e.storage.getTable e.session.currentDatabase stmt.tableName).isSome =
            db.hasTable stmt.tableName := by
          rw [getTable_of_getDatabase here, Database.hasTable]
        rw [there]
        by_cases taken : db.hasTable stmt.tableName = true
        · rw [if_pos taken] at ends
          rw [answer_answered_error ends ran]
          exact ⟨fun fits _ _ => fits, fun fits => fits named taken⟩
        · rw [if_neg taken] at ends
          rw [answer_answered_ok ends ran]
          exact iff_of_true fits_okPacket fun _ held => absurd held taken
    | none =>
        rw [here] at held
        have ends := @executeCreateTable_run _ _ _ _ stmt named held
        have empty : (Database.create e.session.currentDatabase).hasTable stmt.tableName = false := rfl
        rw [if_neg (by simp [empty])] at ends
        rw [answer_answered_ok ends ran]
        exact iff_of_true fits_okPacket fun _ held => by simp [getTable, here] at held

theorem dropTable_answered_iff {tableName : Bytes}
    (ran : (answer (executeDropTable tableName e.session.currentDatabase)).run e = .ok kept e') :
    Answered asked e e' ↔ Legible e.session.currentDatabase e.storage (.dropTable tableName) := by
  rw [Legible]
  by_cases named : e.session.currentDatabase = []
  · exact @unnamed_answered_iff _ _ _ _ (executeDropTable tableName) _ (fun _ => rfl) named ran
  · simp only [ne_eq, named, not_false_eq_true, true_imp_iff]
    cases here : e.storage.getDatabase e.session.currentDatabase with
    | none =>
        have stops := selectedDatabase_absent named here
        have ends : (executeDropTable tableName e.session.currentDatabase).run e.storage =
            .error (unknownDatabase e.session.currentDatabase) e.storage := by
          simp only [executeDropTable, EStateM.run_bind, stops]
        exact answer_answered_error ends ran
    | some db =>
        have ends := @executeDropTable_run _ _ _ tableName named here
        by_cases there : db.hasTable tableName = true
        · simp only [Database.dropTable, if_pos there] at ends
          rw [answer_answered_ok ends ran]
          exact iff_of_true fits_okPacket fun absent => by simp [there] at absent
        · simp only [Database.dropTable, if_neg there] at ends
          rw [answer_answered_error ends ran]
          exact ⟨fun fits _ => fits, fun fits => fits (Bool.eq_false_iff.mpr there)⟩

theorem showTables_answered_iff
    (ran : (answer (executeShowTables e.session.currentDatabase)).run e = .ok kept e') :
    Answered asked e e' ↔ Legible e.session.currentDatabase e.storage .showTables := by
  rw [Legible]
  by_cases named : e.session.currentDatabase = []
  · exact @unnamed_answered_iff _ _ _ _ executeShowTables _ (fun _ => rfl) named ran
  · have ends := @executeShowTables_run e.storage _ named
    cases here : e.storage.getDatabase e.session.currentDatabase with
    | none =>
        rw [here] at ends
        rw [answer_answered_ok ends ran]
        exact iff_of_true (by decide) fun _ db found => nomatch found
    | some db =>
        rw [here] at ends
        rw [answer_answered_ok ends ran]
        simp [named]

theorem plain_answered_iff {stmt : Statement} (plain : Plain (some stmt))
    (ran : (execute stmt).run e = .ok kept e') :
    Answered asked e e' ↔ Legible e.session.currentDatabase e.storage stmt := by
  cases stmt with
  | select | insert => exact plain.elim
  | createTable stmt => exact createTable_answered_iff ((execute_createTable_run stmt e).symm.trans ran)
  | dropTable tableName =>
      exact dropTable_answered_iff ((execute_dropTable_run tableName e).symm.trans ran)
  | showTables =>
      rw [execute, run_get_bind] at ran
      exact showTables_answered_iff ran
  | showDatabases =>
      rw [execute, run_get_bind] at ran
      have ends : executeShowDatabases.run e.storage = .ok (okPacket 0 (ascii "Databases: " ++
          commaSeparated e.storage.getDatabaseNames)) e.storage := rfl
      exact answer_answered_ok ends ran
  | useDatabase databaseName =>
      rw [execute_useDatabase_run] at ran
      obtain ⟨-, rfl⟩ := EStateM.Result.ok.inj ran
      rw [answered_iff rfl, classified_ok_iff]
      rfl

theorem handleQuery_answered_iff {query : Bytes}
    (counts : e.storage.Every fun t => t.columns.length < 2 ^ 64)
    (ran : (handleQuery query).run e = .ok kept e') :
    Answered (QueryAsked query e.session.currentDatabase e.storage) e e' ↔
      QueryLegible query e.session.currentDatabase e.storage := by
  unfold handleQuery at ran
  unfold QueryLegible
  rcases parseQuery_cases (trim query) with ⟨-, throws⟩ | ⟨-, stmt, errors, parsed, shape⟩
  · rw [throws] at ran
    cases ran
  · rw [parsed] at ran ⊢
    cases errors with
    | cons error rest => exact sendErr_answered_iff ran
    | nil =>
        cases stmt with
        | none => exact (sendOk_answered_iff ran).trans (iff_true_intro fits_okPacket)
        | some stmt =>
            rcases shape with plain | ⟨tableName, limit, same⟩
            · exact plain_answered_iff plain ran
            · obtain rfl := Option.some.inj same
              have only : QueryAsked query e.session.currentDatabase e.storage =
                  Asked e.session.currentDatabase e.storage (starStatement tableName limit) := by
                funext rs
                apply propext
                constructor
                · rintro ⟨stmt, parsed', asked⟩
                  rw [parsed] at parsed'
                  cases parsed'
                  exact asked
                · exact fun asked => ⟨_, parsed, asked⟩
              rw [only]
              rw [execute_select_run] at ran
              exact star_answered_iff counts ran

theorem commandBody_answered_iff {cmdByte : UInt8} {text : Bytes} (stays : cmdByte ≠ COM_QUIT)
    (counts : e.storage.Every fun t => t.columns.length < 2 ^ 64)
    (ran : (commandBody cmdByte text).run e = .ok kept e') :
    Answered (CommandAsked cmdByte text e) e e' ↔ CommandLegible cmdByte text e := by
  by_cases query : cmdByte = COM_QUERY
  · subst query
    have ends : (handleQuery text).run e = .ok kept e' := ran
    have asked : CommandAsked COM_QUERY text e =
        QueryAsked text e.session.currentDatabase e.storage := by
      funext rs
      simp [CommandAsked]
    rw [asked, CommandLegible, handleQuery_answered_iff counts ends, imp_iff_right rfl]
  · refine Iff.trans ?_ (iff_true_intro fun same => absurd same query).symm
    unfold commandBody at ran
    split at ran
    · exact (sendOk_answered_iff ran).trans (iff_true_intro fits_okPacket)
    · exact absurd rfl stays
    · exact absurd rfl query
    · rw [handleInitDb, run_bind_ok (modifySession_run _ e)] at ran
      have told (asked : ResultSet → Prop) : Answered asked (e.selected text) e' ↔ _ :=
        sendOk_answered_iff ran
      exact (told _).trans (iff_true_intro fits_okPacket)
    · rw [run_bind_ok (sendErr_run unknownCommand e)] at ran
      obtain ⟨-, rfl⟩ := EStateM.Result.ok.inj ran
      rw [answered_iff rfl, classified_err_iff]
      exact iff_true_intro (by decide)

/-- A command packet that is handled without an exception gets one response, and the first byte of the
response tells what it is, exactly when the answer is legible. A vector has no more elements than a
`size_t` counts. -/
theorem dispatch_answered_iff {b : Buffer} {sequenceId cmdByte : UInt8} {rest tail : Bytes}
    {c : Context} (short : (cmdByte :: rest).length < 2 ^ 24)
    (shown : b.readable = packet sequenceId (cmdByte :: rest) ++ tail)
    (stays : cmdByte ≠ COM_QUIT) (counts : e.storage.Every fun t => t.columns.length < 2 ^ 64)
    (ran : dispatch.run ⟨b, e⟩ = .ok kept c) :
    Answered (CommandAsked cmdByte (rest ++ tail) e) e c.exec ↔
      CommandLegible cmdByte (rest ++ tail) e := by
  rw [dispatch_run short shown, onExec_run] at ran
  cases ends : (commandBody cmdByte (rest ++ tail)).run (e.received sequenceId) with
  | error err e' =>
      rw [ends] at ran
      cases ran
  | ok kept' e' =>
      rw [ends] at ran
      obtain ⟨-, rfl⟩ := EStateM.Result.ok.inj ran
      exact @commandBody_answered_iff (e.received sequenceId) e' kept' _ _ stays counts ends

end Commands

/-! ## A table without columns -/

def columnless : CreateTableStatement := ⟨ascii "t", []⟩

example : stop (ascii "CREATE TABLE t ()") = some (some (.createTable columnless), [], .EOF_TOKEN) := by
  decide +kernel

/-- A session on the database `test` with a table `t` that has no columns. -/
def columnlessExec : Exec where
  session := { connectionId := 1, state := .authenticated, currentDatabase := ascii "test" }
  storage := initial.setTable (ascii "test") (Database.create (ascii "test")) (ascii "t")
    (newTable columnless)
  events := []

def selectPacket : Bytes := packet 0 (COM_QUERY :: ascii "SELECT * FROM t")

theorem initial_test : initial.getDatabase (ascii "test") = some (Database.create (ascii "test")) :=
  getDatabase_setDatabase _ _ _

theorem columnless_reached : Reached columnlessExec.storage := by
  have held : initial.getOrCreateDatabase (ascii "test") =
      (some (Database.create (ascii "test")), initial) := by
    rw [getOrCreateDatabase_eq, initial_test]
  have ran := @executeCreateTable_run _ _ _ _ columnless (by decide) held
  refine ⟨[.createTable columnless (ascii "test")], .cons ?_ (.nil _)⟩
  rw [Change.Step, Change.body, ran]
  rfl

theorem columnless_counts : columnlessExec.storage.Every fun t => t.columns.length < 2 ^ 64 := by
  refine every_initial.setTable initial_test ?_
  rw [newTable_columns]
  decide

theorem selectPacket_parsed : parseQuery (trim (ascii "SELECT * FROM t")) =
    .ok (some (.select (starStatement (ascii "t") (-1))), []) := by
  have stops : stop (trim (ascii "SELECT * FROM t")) =
      some (some (.select (starStatement (ascii "t") (-1))), [], .EOF_TOKEN) := by decide +kernel
  obtain ⟨p, ran, errors, -⟩ := run_of_stop stops
  rw [parseQuery_ok ran, errors]

theorem selectPacket_shown : (Buffer.ofBytes selectPacket).readable =
    packet 0 (COM_QUERY :: ascii "SELECT * FROM t") ++ [] := by decide

theorem commandBody_query (text : Bytes) : commandBody COM_QUERY text = handleQuery text := rfl

theorem handleQuery_select {text : Bytes} {stmt : SelectStatement} (e : Exec)
    (parsed : parseQuery (trim text) = .ok (some (.select stmt), [])) :
    (handleQuery text).run e = (executeSelect stmt).run e := by
  unfold handleQuery
  rw [parsed]
  exact execute_select_run stmt e

theorem columnless_returns : ∃ kept e',
    (handleQuery (ascii "SELECT * FROM t")).run (columnlessExec.received 0) = .ok kept e' ∧
      ∃ c, c.exec = e' ∧
        dispatch.run ⟨Buffer.ofBytes selectPacket, columnlessExec⟩ = .ok kept c := by
  obtain ⟨kept, e', ran⟩ := @executeSelect_returns (starStatement (ascii "t") (-1))
    (columnlessExec.received 0) columnless_reached.allAdmissible
  have body := (handleQuery_select (columnlessExec.received 0) selectPacket_parsed).trans ran
  refine ⟨kept, e', body, ?_⟩
  have dispatched := dispatch_run (by decide) selectPacket_shown columnlessExec
  rw [List.append_nil, commandBody_query, onExec_run] at dispatched
  dsimp only at dispatched
  rw [body] at dispatched
  exact ⟨_, rfl, dispatched⟩

theorem dispatch_answered_columnless : ∃ kept c,
    dispatch.run ⟨Buffer.ofBytes selectPacket, columnlessExec⟩ = .ok kept c ∧
      (Answered (CommandAsked COM_QUERY (ascii "SELECT * FROM t" ++ []) columnlessExec) columnlessExec
        c.exec ↔ CommandLegible COM_QUERY (ascii "SELECT * FROM t" ++ []) columnlessExec) := by
  obtain ⟨kept, e', -, c, -, ran⟩ := columnless_returns
  exact ⟨kept, c, ran, dispatch_answered_iff (by decide) selectPacket_shown (by decide)
    columnless_counts ran⟩

/-- The result set of the SELECT begins with the byte of an OK packet. -/
theorem columnless_untold : ¬ ∀ (b : Buffer) (sequenceId cmdByte : UInt8) (rest : Bytes) (e : Exec)
    (kept : Bool) (c : Context), e.session.isAuthenticated = true → Reached e.storage →
      (cmdByte :: rest).length < 2 ^ 24 → b.readable = packet sequenceId (cmdByte :: rest) →
      cmdByte ≠ COM_QUIT → dispatch.run ⟨b, e⟩ = .ok kept c →
      Answered (CommandAsked cmdByte rest e) e c.exec := by
  intro all
  obtain ⟨kept, e', body, c, rfl, ran⟩ := columnless_returns
  have told := all _ 0 COM_QUERY (ascii "SELECT * FROM t") _ _ _ rfl columnless_reached (by decide)
    (by decide) (by decide) ran
  rw [← commandBody_query] at body
  have legible := (@commandBody_answered_iff (columnlessExec.received 0) c.exec kept COM_QUERY _
    (by decide) columnless_counts body).mp told rfl
  unfold QueryLegible at legible
  rw [selectPacket_parsed] at legible
  have found : (columnlessExec.received 0).storage.getTable (ascii "test") (ascii "t") =
      some (newTable columnless) := getTable_setTable _ _ _ _ _
  have sendable := legible_select legible (by decide) found
  have none : fieldPositions (newTable columnless) [.identifier (ascii "*")] = some [] := by
    rw [fieldPositions, if_pos rfl, newTable_columns]
    rfl
  exact (sendable [] none).1 rfl

end TinySql
