import TinySql.Command.CatalogRefinement
import TinySql.Command.FailedStatements
import TinySql.Command.QueryValidity
import TinySql.Command.Totality

/-!
# The journal of a conversation

What the sessions have asked and what they have been answered, in the order in which it happened,
tells all that the storage engine holds: each table with its rows and its counter can be rebuilt from
it, and from these tables come the answers to the SELECTs.
-/

namespace TinySql
open Frame ResultSet Run StorageEngine Wire

/-- What is on record about a table: the statement that made it, the rows that have been inserted
since, in their order, and how many AUTO_INCREMENT values have been used. -/
structure Record where
  schema : CreateTableStatement
  rows : List Row
  generated : Nat

namespace Record

def opened (stmt : CreateTableStatement) : Record := ⟨stmt, [], 0⟩

def table (r : Record) : Table :=
  { newTable r.schema with rows := r.rows, nextAutoIncrement := 1 + Int64.ofNat r.generated }

/-- An INSERT that is answered with OK adds its row. A row that is refused has used its values, too. -/
def inserted (stmt : InsertStatement) (ok : Bool) (r : Record) : Record :=
  match sources stmt r.table.columns with
  | none => r
  | some srcs => { r with
      rows := if ok then r.rows ++ [r.table.rowOf srcs] else r.rows
      generated := r.generated + generations srcs }

end Record

/-- A statement of a session, and the response to it. -/
abbrev Exchange := (Nat × Statement) × Bytes

def answeredOk (response : Bytes) : Bool := response[4]? == some 0x00

/-- The current database of each session, and the record of each table that there is. -/
structure Journal where
  current : Nat → Bytes
  records : Bytes → Bytes → Option Record

namespace Journal

def start (sessions : Nat → Session) : Journal :=
  ⟨fun i => (sessions i).currentDatabase, fun _ _ => none⟩

def enter (d n : Bytes) (f : Option Record → Option Record) (j : Journal) : Journal :=
  { j with records := fun d' n' => if d' = d ∧ n' = n then f (j.records d n) else j.records d' n' }

def note (j : Journal) : Exchange → Journal
  | ((i, stmt), response) => match stmt with
    | .createTable stmt => j.enter (j.current i) stmt.tableName fun record =>
        if answeredOk response then some (.opened stmt) else record
    | .dropTable tableName => j.enter (j.current i) tableName fun record =>
        if answeredOk response then none else record
    | .insert stmt =>
        j.enter (j.current i) stmt.tableName (Option.map (.inserted stmt (answeredOk response)))
    | .useDatabase name => { j with current := Function.update j.current i name }
    | .select _ | .showTables | .showDatabases => j

def after (j : Journal) (run : List Exchange) : Journal := run.foldl note j

end Journal

namespace System

/-- A session executes a statement and sends one response. -/
def Answers (s : System) (x : Exchange) (s' : System) : Prop :=
  ∃ e, (execute x.1.2).run (s.exec x.1.1) = .ok true e ∧
    e.events = [.respond x.2, .send x.2] ∧ s' = s.after x.1.1 e

end System

/-! ## Records and tables -/

/-- The storage engine holds the recorded tables and no others, and none under the empty name. -/
structure Mirrors (records : Bytes → Bytes → Option Record) (s : StorageEngine) : Prop where
  tables : ∀ d n, s.getTable d n = (records d n).map Record.table
  unnamed : ∀ n, records [] n = none

section Mirrors
variable {s s' : StorageEngine} {j : Journal} {d n : Bytes} {f : Option Record → Option Record}

theorem Record.table_opened (stmt : CreateTableStatement) : (Record.opened stmt).table = newTable stmt := by
  have rows := newTable_rows stmt
  have counter : (newTable stmt).nextAutoIncrement = 1 := foldl_addColumn_counter stmt.columns _
  unfold Record.table Record.opened
  cases made : newTable stmt with
  | mk name columns map stored next indexed covered =>
      simp only [made] at rows counter ⊢
      simp [rows, counter]

theorem Record.table_inserted {stmt : InsertStatement} {srcs : List Source} {r : Record}
    (known : sources stmt r.table.columns = some srcs) (ok : Bool) :
    (r.inserted stmt ok).table =
      if ok then r.table.inserted srcs else r.table.counted srcs := by
  have counts : counter (1 + Int64.ofNat r.generated) srcs =
      1 + Int64.ofNat (r.generated + generations srcs) := by
    rw [counter_eq, Int64.ofNat_add, Int64.add_assoc]
  simp only [Record.inserted, known]
  cases ok <;> simp only [Record.table, Table.inserted, Table.counted, counts] <;> rfl

theorem Mirrors.enter (mirrors : Mirrors j.records s) (named : d ≠ [])
    (here : s'.getTable d n = (f (j.records d n)).map Record.table)
    (others : ∀ d' n', ¬ (d' = d ∧ n' = n) → s'.getTable d' n' = s.getTable d' n') :
    Mirrors (j.enter d n f).records s' := by
  constructor
  · intro d' n'
    rw [Journal.enter]
    dsimp only
    split
    · rename_i same
      rw [same.1, same.2, here]
    · rename_i other
      rw [others d' n' other, mirrors.tables d' n']
  · intro n'
    simp [Journal.enter, named.symm, mirrors.unnamed]

theorem Mirrors.enter_same (mirrors : Mirrors j.records s) (same : f (j.records d n) = j.records d n) :
    Mirrors (j.enter d n f).records s := by
  have unchanged : (j.enter d n f).records = j.records := by
    funext d' n'
    simp only [Journal.enter, same]
    split
    · rename_i here
      rw [here.1, here.2]
    · rfl
  rw [unchanged]
  exact mirrors

end Mirrors

/-! ## Statements -/

/-- The statement ends as the journal notes it, and is answered with OK exactly when this holds. -/
def Noted (body : StatementM OkPacket) (s : StorageEngine) (accepted : Prop) (noted : Bool → Journal) :
    Prop :=
  (∃ p s', body.run s = .ok p s' ∧ accepted ∧ Mirrors (noted true).records s') ∨
    ∃ p s', body.run s = .error p s' ∧ ¬ accepted ∧ Mirrors (noted false).records s'

/-- The row that the INSERT builds is one that the recorded table takes. -/
def Record.Takes (stmt : InsertStatement) (r : Record) : Prop :=
  ∃ srcs, sources stmt r.table.columns = some srcs ∧ ¬ Refused srcs r.table.columns

section Noted
variable {s : StorageEngine} {j : Journal} (dbName : Bytes)

theorem Mirrors.absent {tableName : Bytes} (mirrors : Mirrors j.records s)
    (absent : dbName = [] ∨ s.getTable dbName tableName = none) : j.records dbName tableName = none := by
  rcases absent with rfl | absent
  · exact mirrors.unnamed _
  · exact Option.map_eq_none_iff.mp ((mirrors.tables _ _).symm.trans absent)

theorem Mirrors.present {tableName : Bytes} (mirrors : Mirrors j.records s) :
    (j.records dbName tableName).isSome = (s.getTable dbName tableName).isSome := by
  rw [mirrors.tables, Option.isSome_map]

theorem createTable_noted (stmt : CreateTableStatement) (mirrors : Mirrors j.records s) :
    Noted (executeCreateTable stmt dbName) s
      (dbName ≠ [] ∧ j.records dbName stmt.tableName = none) fun ok =>
        j.enter dbName stmt.tableName fun record => if ok then some (.opened stmt) else record := by
  by_cases named : dbName = []
  · subst named
    exact .inr ⟨noDatabaseSelected, s, rfl, fun both => both.1 rfl, mirrors.enter_same rfl⟩
  · have held := getOrCreateDatabase_eq s dbName
    cases here : s.getDatabase dbName with
    | some db =>
        rw [here] at held
        have ran := @executeCreateTable_run _ _ _ _ stmt named held
        have present := @Mirrors.present _ _ dbName stmt.tableName mirrors
        rw [getTable_of_getDatabase here] at present
        by_cases taken : db.hasTable stmt.tableName = true
        · rw [if_pos taken] at ran
          rw [← Database.hasTable, taken] at present
          refine .inr ⟨_, _, ran, fun both => ?_, mirrors.enter_same rfl⟩
          rw [both.2] at present
          cases present
        · rw [if_neg taken] at ran
          rw [← Database.hasTable, Bool.eq_false_iff.mpr taken, Option.isSome_eq_false_iff,
            Option.isNone_iff_eq_none] at present
          refine .inl ⟨_, _, ran, ⟨named, present⟩, mirrors.enter named ?_ fun d n other =>
            getTable_setTable_ne here other⟩
          simp [Record.table_opened]
    | none =>
        rw [here] at held
        have ran := @executeCreateTable_run _ _ _ _ stmt named held
        rw [if_neg (by simp [Database.hasTable, Database.getTable, Database.create])] at ran
        have none := @Mirrors.absent _ _ dbName stmt.tableName mirrors (.inr (by simp [getTable, here]))
        refine .inl ⟨_, _, ran, ⟨named, none⟩, mirrors.enter named ?_ fun d n other => ?_⟩
        · simp [Record.table_opened]
        · rw [getTable_setTable_ne (getDatabase_setDatabase _ _ _) other]
          by_cases same : d = dbName
          · subst same
            simp [getTable, here, Database.getTable, Database.create]
          · exact getTable_setDatabase_ne s n _ same

theorem dropTable_noted (tableName : Bytes) (mirrors : Mirrors j.records s) :
    Noted (executeDropTable tableName dbName) s ((j.records dbName tableName).isSome) fun ok =>
      j.enter dbName tableName fun record => if ok then none else record := by
  rcases selectedDatabase_cases dbName s with ⟨db, named, here⟩ | ⟨absent, p, -, stops⟩
  · have ran := @executeDropTable_run _ _ _ tableName named here
    rw [mirrors.present, getTable_of_getDatabase here, ← Database.hasTable]
    by_cases there : db.hasTable tableName = true
    · simp only [Database.dropTable, if_pos there] at ran
      refine .inl ⟨_, _, ran, there, mirrors.enter named ?_ fun d n other => ?_⟩
      · simp [getTable_setDatabase, Database.getTable]
      · by_cases same : d = dbName
        · subst same
          rw [getTable_setDatabase, getTable_of_getDatabase here]
          exact AList.lookup_erase_ne fun both => other ⟨rfl, both⟩
        · exact getTable_setDatabase_ne s n _ same
    · simp only [Database.dropTable, if_neg there] at ran
      exact .inr ⟨_, s, ran, there, mirrors.enter_same rfl⟩
  · have ran : (executeDropTable tableName dbName).run s = .error p s := by
      simp only [executeDropTable, EStateM.run_bind, stops]
    have none := @Mirrors.absent _ _ dbName tableName mirrors
      (absent.imp_right fun none => by simp [getTable, none])
    exact .inr ⟨p, s, ran, by simp [none], mirrors.enter_same rfl⟩

theorem insert_noted (stmt : InsertStatement) (mirrors : Mirrors j.records s) :
    Noted (executeInsert stmt dbName) s
      (∃ r ∈ j.records dbName stmt.tableName, r.Takes stmt) fun ok =>
        j.enter dbName stmt.tableName (Option.map (.inserted stmt ok)) := by
  rcases executeInsert_cases stmt dbName s with ⟨db, t, named, here, there⟩ | ⟨absent, p, -, stops⟩
  · have ran := executeInsert_spec named here there
    have found := (getTable_of_getDatabase here stmt.tableName).trans there
    obtain ⟨r, record, rfl⟩ := Option.map_eq_some_iff.mp ((mirrors.tables _ _).symm.trans found)
    have takes : (∃ r ∈ j.records dbName stmt.tableName, r.Takes stmt) ↔ r.Takes stmt := by
      simp [record]
    rw [takes, Record.Takes]
    cases known : sources stmt r.table.columns with
    | none =>
        rw [known] at ran
        have same : Option.map (Record.inserted stmt false) (some r) = some r := by
          simp [Record.inserted, known]
        exact .inr ⟨_, _, ran, by simp, mirrors.enter_same (by rw [record, same])⟩
    | some srcs =>
        rw [known] at ran
        dsimp only at ran
        have others (t : Table) (d n : Bytes) (other : ¬ (d = dbName ∧ n = stmt.tableName)) :=
          getTable_setTable_ne (t := t) here other
        split at ran
        · rename_i refused
          refine .inr ⟨_, _, ran, by simp [refused], mirrors.enter named ?_ (others _)⟩
          simp [record, Record.table_inserted known]
        · rename_i admitted
          refine .inl ⟨_, _, ran, ⟨srcs, rfl, admitted⟩, mirrors.enter named ?_ (others _)⟩
          simp [record, Record.table_inserted known]
  · have none := mirrors.absent dbName absent
    exact .inr ⟨p, s, stops, by simp [none], mirrors.enter_same (by rw [none, Option.map_none])⟩

end Noted

/-! ## SELECT -/

/-- A computation that reads: it changes neither the storage nor the current database. -/
structure Reads (e e' : Exec) : Prop where
  storage : e'.storage = e.storage
  current : e'.session.currentDatabase = e.session.currentDatabase

instance : Std.Refl Reads where
  refl _ := ⟨rfl, rfl⟩

instance : IsTrans Exec Reads where
  trans _ _ _ first second :=
    ⟨second.storage.trans first.storage, second.current.trans first.current⟩

theorem select_reads (stmt : SelectStatement) : Respects Reads (executeSelect stmt) := by
  refine respects_executeSelect (fun _ => ⟨rfl, rfl⟩) (fun _ _ _ => ⟨rfl, rfl⟩) fun dbName e => ?_
  have same := final_selectRows stmt dbName e.storage
  cases ran : (selectRows stmt dbName).run e.storage with
  | ok result s =>
      rw [ran] at same
      rw [onStorage_ok ran]
      exact ⟨same, rfl⟩
  | error p s =>
      rw [ran] at same
      rw [onStorage_error ran]
      exact ⟨same, rfl⟩

structure Selection where
  columns : List ColumnDefinitionPacket
  rows : List (List Value)

def selection (stmt : SelectStatement) (dbName : Bytes) (t : Table) : Option Selection :=
  (fieldPositions t stmt.columns).map fun positions =>
    ⟨definitions (columnsAt t positions) stmt.tableName dbName,
      (selectedRows stmt t).map (project positions)⟩

def Selection.resultSet (a : Selection) : ResultSet := ⟨a.columns, a.rows.map (·.map cellText)⟩

def Selection.Deliverable (a : Selection) : Prop :=
  ∀ payload ∈ payloads a.columns a.rows resultSetEof.payload, Fits payload

/-- A vector has no more elements than a `size_t` counts, and the parser makes no negative offset. -/
structure Countable (stmt : SelectStatement) (t : Table) : Prop where
  offset : 0 ≤ stmt.offset
  fields : stmt.columns.length < 2 ^ 64
  columns : t.columns.length < 2 ^ 64

/-- The response to a SELECT is the one that this table gives rise to, if it is there: an ERR packet
exactly when the field list or the WHERE clause is at fault, and otherwise a result set with the
selection, whose definitions tell of the columns in the field list, and which the receiver reads
whenever its payloads fit. -/
def SelectsFrom (stmt : SelectStatement) (dbName : Bytes) (table : Option Table)
    (response : Bytes) : Prop :=
  match table with
  | none => response[4]? = some 0xFF
  | some t =>
      (response[4]? = some 0xFF ↔
        ¬ (FieldsKnown stmt t.columns ∧ ∀ row ∈ t.rows, WhereDecides stmt t.columns row)) ∧
      (response[4]? ≠ some 0xFF → Countable stmt t → ∃ a ∈ selection stmt dbName t,
        (∃ positions ∈ fieldPositions t stmt.columns,
          List.Forall₂ (Describes dbName stmt.tableName) (columnsAt t positions) a.columns) ∧
        (a.Deliverable → decode response = some a.resultSet))

theorem selection_describes {stmt : SelectStatement} {dbName : Bytes} {t : Table} {a : Selection}
    (asked : a ∈ selection stmt dbName t) : ∃ positions ∈ fieldPositions t stmt.columns,
      List.Forall₂ (Describes dbName stmt.tableName) (columnsAt t positions) a.columns := by
  obtain ⟨positions, fields, rfl⟩ := Option.map_eq_some_iff.mp asked
  exact ⟨positions, fields, describes_definitions _ _ _⟩

theorem executeSelect_sent_selection {stmt : SelectStatement} {e e' : Exec} {t : Table}
    {response : Bytes}
    (found : e.storage.getTable e.session.currentDatabase stmt.tableName = some t)
    (widths : ∀ row ∈ t.rows, row.length = t.columns.length) (counts : Countable stmt t)
    (ran : (executeSelect stmt).run e = .ok true e')
    (events : e'.events = e.events ++ [.respond response, .send response])
    (answered : response[4]? ≠ some 0xFF) :
    ∃ a ∈ selection stmt e.session.currentDatabase t,
      a.columns.length < 2 ^ 64 ∧ (∀ row ∈ a.rows, row.length = a.columns.length) ∧
      response = packets e.session.sequenceId (payloads a.columns a.rows resultSetEof.payload) := by
  rcases executeSelect_run found widths counts.offset counts.columns counts.fields with
    ⟨p, ran'⟩ | ⟨positions, e'', response', asked, -, same, short, shown, ran', events'⟩
  · obtain ⟨-, rfl⟩ := EStateM.Result.ok.inj (ran.symm.trans ran')
    obtain rfl : packet e.session.sequenceId p.payload = response := by
      simpa using List.append_cancel_left events
    exact absurd (p.first _) answered
  · obtain ⟨-, rfl⟩ := EStateM.Result.ok.inj (ran.symm.trans ran')
    obtain rfl : response' = response := by
      simpa using List.append_cancel_left (events'.symm.trans events)
    have length := length_definitions (columnsAt t positions) stmt.tableName
      e.session.currentDatabase
    refine ⟨_, Option.map_eq_some_iff.mpr ⟨positions, asked, rfl⟩, by rwa [length, same], ?_, shown⟩
    intro row member
    rw [length, same, length_of_mem_projected member]

theorem selectsFrom_refused {stmt : SelectStatement} {dbName response : Bytes} {s s' : StorageEngine}
    {p : ErrPacket} (unnamed : s.getTable [] stmt.tableName = none)
    (stops : (selectRows stmt dbName).run s = .error p s')
    (refused : response[4]? = some 0xFF) :
    SelectsFrom stmt dbName (s.getTable dbName stmt.tableName) response := by
  cases found : s.getTable dbName stmt.tableName with
  | none => exact refused
  | some t =>
      have named : dbName ≠ [] := fun same => by
        rw [same, unnamed] at found
        cases found
      refine ⟨iff_of_true refused fun selected => ?_, fun answered => absurd refused answered⟩
      obtain ⟨result, ran⟩ := (selectRows_ok_iff found).mpr ⟨named, selected⟩
      cases stops.symm.trans ran

theorem executeSelect_from (stmt : SelectStatement) {e : Exec} (reached : Reached e.storage)
    (unnamed : e.storage.getTable [] stmt.tableName = none) :
    ∃ e' response, (executeSelect stmt).run e = .ok true e' ∧
      e'.events = e.events ++ [.respond response, .send response] ∧
      SelectsFrom stmt e.session.currentDatabase
        (e.storage.getTable e.session.currentDatabase stmt.tableName) response := by
  have every := reached.allAdmissible
  rcases selectRows_ends stmt e.session.currentDatabase e.storage with
    ⟨p, stops⟩ | ⟨t, fields, kept, found, -, -, ends⟩
  · exact ⟨_, _, (executeSelect_refused stops).trans (sendErr_run p e), rfl,
      selectsFrom_refused unnamed stops (p.first e.session.sequenceId)⟩
  · obtain ⟨e', response, ran, events, shown⟩ :=
      executeSelect_sends ends (selectRows_inside every ends)
    have answered : response[4]? ≠ some 0xFF := by
      rw [shown]
      exact sentPayloads_first _ _ _ _
    refine ⟨e', response, ran, events, ?_⟩
    rw [found]
    refine ⟨iff_of_false answered (not_not_intro ?_), fun _ counts => ?_⟩
    · exact ((selectRows_ok_iff found).mp ⟨_, ends⟩).2
    · have widths : ∀ row ∈ t.rows, row.length = t.columns.length :=
        fun row member => (every _ _ t found row member).1
      obtain ⟨a, asked, short, wide, sent⟩ :=
        executeSelect_sent_selection found widths counts ran events answered
      refine ⟨a, asked, selection_describes asked, fun fits => ?_⟩
      rw [sent]
      exact decode_packets short (fun p member => fits _ (mem_payloads_column member)) wide
        (fun row member => fits _ (mem_payloads_row member)) rfl e.session.sequenceId

/-! ## Runs -/

namespace System

/-- The journal tells the current database of each session and all tables. -/
structure Kept (j : Journal) (s : System) : Prop where
  current : ∀ i, j.current i = (s.sessions i).currentDatabase
  mirrors : Mirrors j.records s.storage
  reached : Reached s.storage

variable {s : System} {j j' : Journal} {i : Nat} {e : Exec}

theorem reached_change {s : StorageEngine} (reached : Reached s) (c : Change) :
    Reached (final (c.body.run s)) := by
  obtain ⟨run, runs⟩ := reached
  exact ⟨run ++ [c], runs.concat rfl⟩

theorem Kept.after (kept : Kept j s) (current : j'.current = j.current)
    (same : e.session.currentDatabase = (s.sessions i).currentDatabase)
    (mirrors : Mirrors j'.records e.storage) (reached : Reached e.storage) : Kept j' (s.after i e) where
  current i' := by
    rw [current, kept.current, System.after]
    dsimp only
    by_cases here : i' = i
    · subst here
      rw [Function.update_self, same]
    · rw [Function.update_of_ne here]
  mirrors := mirrors
  reached := reached

theorem answers_of_noted {body : StatementM OkPacket} {stmt : Statement} {accepted : Prop}
    {noted : Bool → Journal} (kept : Kept j s)
    (ran : (execute stmt).run (s.exec i) = (answer body).run (s.exec i))
    (ends : Noted body s.storage accepted noted) (current : ∀ ok, (noted ok).current = j.current)
    (reached : Reached (final (body.run s.storage))) :
    ∃ response s', Answers s ((i, stmt), response) s' ∧ (answeredOk response ↔ accepted) ∧
      Kept (noted (answeredOk response)) s' := by
  rcases ends with ⟨p, s', ends, accepts, mirrors⟩ | ⟨p, s', ends, refuses, mirrors⟩
  · rw [ends] at reached
    have ok : answeredOk (packet (s.sessions i).sequenceId p.payload) = true := by
      rw [answeredOk, p.first]
      rfl
    refine ⟨packet (s.sessions i).sequenceId p.payload, _,
      ⟨_, ran.trans (answer_run_ok ends), rfl, rfl⟩, iff_of_true ok accepts, ?_⟩
    rw [ok]
    exact kept.after (current true) rfl mirrors reached
  · rw [ends] at reached
    have refused : answeredOk (packet (s.sessions i).sequenceId p.payload) = false := by
      rw [answeredOk, p.first]
      rfl
    refine ⟨packet (s.sessions i).sequenceId p.payload, _,
      ⟨_, ran.trans (answer_run_error ends), rfl, rfl⟩, iff_of_false (by simp [refused]) refuses, ?_⟩
    rw [refused]
    exact kept.after (current false) rfl mirrors reached

/-! ## Conversations -/

/-- What the journal says about the response to a statement. -/
def Explains (j : Journal) : Exchange → Prop
  | ((i, stmt), response) => match stmt with
    | .select stmt => SelectsFrom stmt (j.current i)
        ((j.records (j.current i) stmt.tableName).map Record.table) response
    | .createTable stmt => answeredOk response ↔
        j.current i ≠ [] ∧ j.records (j.current i) stmt.tableName = none
    | .dropTable tableName => answeredOk response ↔ (j.records (j.current i) tableName).isSome
    | .insert stmt => answeredOk response ↔
        ∃ r ∈ j.records (j.current i) stmt.tableName, r.Takes stmt
    | .showTables | .showDatabases | .useDatabase _ => True

theorem Kept.reads (kept : Kept j s) (reads : Reads (s.exec i) e) : Kept j (s.after i e) := by
  apply kept.after rfl reads.current
  · rw [reads.storage]
    exact kept.mirrors
  · rw [reads.storage]
    exact kept.reached

theorem Kept.shows {body : StatementM OkPacket} {stmt : Statement} (kept : Kept j s)
    (ran : (execute stmt).run (s.exec i) = (answer body).run (s.exec i))
    (reads : final (body.run s.storage) = s.storage) :
    ∃ response s', Answers s ((i, stmt), response) s' ∧ Kept j s' := by
  cases ends : body.run s.storage with
  | ok p s' =>
      rw [ends] at reads
      obtain rfl : s' = s.storage := reads
      exact ⟨_, _, ⟨_, ran.trans (answer_run_ok ends), rfl, rfl⟩, kept.after rfl rfl kept.mirrors
        kept.reached⟩
  | error p s' =>
      rw [ends] at reads
      obtain rfl : s' = s.storage := reads
      exact ⟨_, _, ⟨_, ran.trans (answer_run_error ends), rfl, rfl⟩, kept.after rfl rfl kept.mirrors
        kept.reached⟩

theorem Kept.changes {body : StatementM OkPacket} {stmt : Statement} {accepted : Prop}
    {noted : Bool → Journal} (kept : Kept j s) (c : Change) (isBody : c.body = body)
    (ran : (execute stmt).run (s.exec i) = (answer body).run (s.exec i))
    (ends : Noted body s.storage accepted noted) (current : ∀ ok, (noted ok).current = j.current) :
    ∃ response s', Answers s ((i, stmt), response) s' ∧ (answeredOk response ↔ accepted) ∧
      Kept (noted (answeredOk response)) s' :=
  answers_of_noted kept ran ends current (isBody ▸ reached_change kept.reached c)

theorem Kept.step (kept : Kept j s) (i : Nat) (stmt : Statement) :
    ∃ response s', Answers s ((i, stmt), response) s' ∧ Explains j ((i, stmt), response) ∧
      Kept (j.note ((i, stmt), response)) s' := by
  have current := kept.current i
  cases stmt with
  | select stmt =>
      have unnamed : s.storage.getTable [] stmt.tableName = none := by
        rw [kept.mirrors.tables, kept.mirrors.unnamed, Option.map_none]
      obtain ⟨e, response, ran, events, from_⟩ :=
        executeSelect_from stmt (e := s.exec i) kept.reached unnamed
      have reads : Reads (s.exec i) e := by
        have all := select_reads stmt (s.exec i)
        rwa [ran] at all
      refine ⟨response, _, ⟨e, (execute_select_run _ _).trans ran, events, rfl⟩, ?_, kept.reads reads⟩
      simp only [Explains]
      rw [← kept.mirrors.tables, current]
      exact from_
  | createTable stmt =>
      have noted := createTable_noted (s.sessions i).currentDatabase stmt kept.mirrors
      simp only [Explains, Journal.note, current]
      exact kept.changes (.createTable stmt _) rfl (execute_createTable_run stmt _) noted fun _ => rfl
  | dropTable tableName =>
      have noted := dropTable_noted (s.sessions i).currentDatabase tableName kept.mirrors
      simp only [Explains, Journal.note, current]
      exact kept.changes (.dropTable tableName _) rfl (execute_dropTable_run tableName _) noted
        fun _ => rfl
  | insert stmt =>
      have noted := insert_noted (s.sessions i).currentDatabase stmt kept.mirrors
      simp only [Explains, Journal.note, current]
      exact kept.changes (.insert stmt _) rfl (execute_insert_run stmt _) noted fun _ => rfl
  | showTables =>
      obtain ⟨response, s', answers, kept'⟩ := @Kept.shows _ _ i _ .showTables kept
        (by rw [execute, run_get_bind]) (final_executeShowTables _ _)
      exact ⟨response, s', answers, trivial, kept'⟩
  | showDatabases =>
      obtain ⟨response, s', answers, kept'⟩ := @Kept.shows _ _ i _ .showDatabases kept
        (by rw [execute, run_get_bind]) rfl
      exact ⟨response, s', answers, trivial, kept'⟩
  | useDatabase name =>
      refine ⟨_, _, ⟨_, execute_useDatabase_run name (s.exec i), rfl, rfl⟩, trivial, ?_⟩
      refine ⟨fun i' => ?_, kept.mirrors, kept.reached⟩
      by_cases here : i' = i
      · subst here
        simp [Journal.note, System.after, Exec.responded, Exec.counted, Exec.selected]
      · simp [Journal.note, System.after, here, kept.current]

theorem kept_start (sessions : Nat → Session) : Kept (.start sessions) ⟨sessions, initial⟩ where
  current _ := rfl
  mirrors := by
    refine ⟨fun d n => ?_, fun _ => rfl⟩
    cases found : initial.getTable d n with
    | none => rfl
    | some t => exact absurd (every_initial (P := fun _ => False) d n t found) id
  reached := ⟨[], .nil _⟩

theorem Kept.conversation (kept : Kept j s) (commands : List (Nat × Statement)) :
    ∃ run s', run.map Prod.fst = commands ∧ Runs Answers s run s' ∧ Kept (j.after run) s' ∧
      ∀ done x rest, run = done ++ x :: rest → Explains (j.after done) x := by
  induction commands generalizing s j with
  | nil => exact ⟨[], s, rfl, .nil s, kept, by simp⟩
  | cons command rest ih =>
      obtain ⟨i, stmt⟩ := command
      obtain ⟨response, s', first, explained, kept'⟩ := kept.step i stmt
      obtain ⟨run, s'', same, runs, kept'', later⟩ := ih kept'
      refine ⟨((i, stmt), response) :: run, s'', by simp [same], .cons first runs, kept'', ?_⟩
      intro done x rest split
      cases done with
      | nil =>
          obtain ⟨rfl, -⟩ := List.cons_eq_cons.mp split
          exact explained
      | cons y done =>
          rw [List.cons_append, List.cons_eq_cons] at split
          obtain ⟨rfl, split⟩ := split
          exact later done x rest split

/-- Whatever the sessions do, every statement is answered, and the journal of the conversation
rebuilds every table of the storage engine: its rows are those of the INSERTs answered with OK since
its CREATE TABLE, each once and in their order. -/
theorem tables_recorded (sessions : Nat → Session) (commands : List (Nat × Statement)) :
    ∃ run s', run.map Prod.fst = commands ∧ Runs Answers ⟨sessions, initial⟩ run s' ∧
      ∀ d n, s'.storage.getTable d n =
        (((Journal.start sessions).after run).records d n).map Record.table := by
  obtain ⟨run, s', same, runs, kept, -⟩ := (kept_start sessions).conversation commands
  exact ⟨run, s', same, runs, kept.mirrors.tables⟩

/-- In every conversation each response is the one that the journal of what has been said before it
accounts for. -/
theorem answers_explained (sessions : Nat → Session) (commands : List (Nat × Statement)) :
    ∃ run s', run.map Prod.fst = commands ∧ Runs Answers ⟨sessions, initial⟩ run s' ∧
      ∀ done x rest, run = done ++ x :: rest → Explains ((Journal.start sessions).after done) x := by
  obtain ⟨run, s', same, runs, -, explained⟩ := (kept_start sessions).conversation commands
  exact ⟨run, s', same, runs, explained⟩

end System

end TinySql
