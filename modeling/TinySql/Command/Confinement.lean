import TinySql.Command.CatalogRefinement
import TinySql.Command.PacketIsolation
import TinySql.Lib.Coupling
import TinySql.Protocol.ProtocolHandler

/-!
# Commands and the databases of others

A command works in the current database of its session. Two storages that agree on a set of existing
databases are the same to it, as long as the current database is one of these, and the command
changes nothing outside of them.
-/

namespace TinySql
open Coupling StorageEngine

/-- Two storages that agree on these databases, of which each has its own others and has kept them
from a start: no database has come or gone. -/
structure Beside (D : Set Bytes) (start start' s s' : StorageEngine) : Prop where
  inside : ∀ d ∈ D, s.getDatabase d = s'.getDatabase d
  outside : ∀ d, d ∉ D → s.getDatabase d = start.getDatabase d
  outside' : ∀ d, d ∉ D → s'.getDatabase d = start'.getDatabase d
  present : ∀ d ∈ D, s.hasDatabase d = true

section Beside
variable {D : Set Bytes} {start start' s s' : StorageEngine} {d n : Bytes} {db : Database}

theorem Beside.setDatabase (beside : Beside D start start' s s') (member : d ∈ D) (db : Database) :
    Beside D start start' (s.setDatabase d db) (s'.setDatabase d db) := by
  constructor
  · intro d' member'
    by_cases same : d' = d
    · subst same
      rw [getDatabase_setDatabase, getDatabase_setDatabase]
    · rw [getDatabase_setDatabase_ne s db same, getDatabase_setDatabase_ne s' db same]
      exact beside.inside d' member'
  · intro d' other
    have different : d' ≠ d := fun same => other (same ▸ member)
    rw [getDatabase_setDatabase_ne s db different, beside.outside d' other]
  · intro d' other
    have different : d' ≠ d := fun same => other (same ▸ member)
    rw [getDatabase_setDatabase_ne s' db different, beside.outside' d' other]
  · intro d' member'
    rw [hasDatabase_setDatabase, beside.present d' member', Bool.or_true]

theorem mem_keys (s : StorageEngine) (d : Bytes) : d ∈ s.databases.keys ↔ s.hasDatabase d = true := by
  rw [hasDatabase, getDatabase, AList.lookup_isSome]
  rfl

/-- The sorted names depend only on which databases there are. -/
theorem getDatabaseNames_congr (same : ∀ d, s.hasDatabase d = s'.hasDatabase d) :
    s.getDatabaseNames = s'.getDatabaseNames := by
  have perm : s.databases.keys.Perm s'.databases.keys := by
    rw [List.perm_ext_iff_of_nodup s.databases.keys_nodup s'.databases.keys_nodup]
    intro d
    rw [mem_keys, mem_keys, same]
  have sorted := List.pairwise_insertionSort (· ≤ ·) s.databases.keys
  have sorted' := List.pairwise_insertionSort (· ≤ ·) s'.databases.keys
  refine List.Perm.eq_of_pairwise (fun _ _ _ _ => List.le_antisymm) sorted sorted' ?_
  exact (List.perm_insertionSort _ _).trans (perm.trans (List.perm_insertionSort _ _).symm)

theorem Beside.names (beside : Beside D start start' s s')
    (starts : ∀ d, start.hasDatabase d = start'.hasDatabase d) :
    s.getDatabaseNames = s'.getDatabaseNames := by
  apply getDatabaseNames_congr
  intro d
  by_cases member : d ∈ D
  · rw [hasDatabase, hasDatabase, beside.inside d member]
  · have same := starts d
    rwa [hasDatabase, ← beside.outside d member, hasDatabase, ← beside.outside' d member] at same

end Beside

/-! ## Statements -/

section Statements
variable {D : Set Bytes} {start start' : StorageEngine} {dbName : Bytes}

/-- The statement treats storages that agree on the databases alike. -/
abbrev Confined {α : Type} (D : Set Bytes) (start start' : StorageEngine) (m : StatementM α) : Prop :=
  Coupled (Beside D start start') (Beside D start start') (Beside D start start') m m

theorem confined_of_stops {α : Type} {m : StatementM α} {p : ErrPacket}
    (stops : ∀ s, m.run s = .error p s) : Confined D start start' m := by
  intro s s' beside
  rw [stops s, stops s']
  exact .error beside

theorem selectedDatabase_confined (inside : dbName ∈ D) (named : dbName ≠ []) :
    Confined D start start' (selectedDatabase dbName) := by
  intro s s' beside
  have same := beside.inside dbName inside
  cases here : s.getDatabase dbName with
  | none =>
      rw [selectedDatabase_absent named here, selectedDatabase_absent named (same ▸ here)]
      exact .error beside
  | some db =>
      rw [selectedDatabase_run named here, selectedDatabase_run named (same ▸ here)]
      exact .ok beside

theorem existingTable_confined (db : Database) (tableName : Bytes) :
    Confined D start start' (existingTable dbName db tableName) := by
  unfold existingTable
  split
  · exact coupled_pure _
  · exact coupled_throw _

theorem ofExcept_confined {α : Type} (result : Except ErrPacket α) :
    Confined D start start' (ofExcept result) := by
  cases result with
  | ok a => exact coupled_pure a
  | error p => exact coupled_throw p

theorem setTable_confined (inside : dbName ∈ D) (db : Database) (tableName : Bytes) (t : Table) :
    Confined D start start' (modify (StorageEngine.setTable dbName db tableName t)) :=
  coupled_modify fun _ _ beside => beside.setDatabase inside _

theorem selectRows_confined (inside : dbName = [] ∨ dbName ∈ D) (stmt : SelectStatement) :
    Confined D start start' (selectRows stmt dbName) := by
  by_cases named : dbName = []
  · subst named
    exact confined_of_stops (p := noDatabaseSelected) fun _ => rfl
  · refine (selectedDatabase_confined (inside.resolve_left named) named).bind fun db => ?_
    refine (existingTable_confined db _).bind fun table => ?_
    exact (ofExcept_confined _).bind fun found => (ofExcept_confined _).bind fun rows => coupled_pure _

theorem executeInsert_confined (inside : dbName = [] ∨ dbName ∈ D) (stmt : InsertStatement) :
    Confined D start start' (executeInsert stmt dbName) := by
  by_cases named : dbName = []
  · subst named
    exact confined_of_stops (p := noDatabaseSelected) fun _ => rfl
  · have inside := inside.resolve_left named
    refine (selectedDatabase_confined inside named).bind fun db => ?_
    refine (existingTable_confined db _).bind fun table => ?_
    refine (ofExcept_confined _).bind fun built => ?_
    refine (setTable_confined inside db _ _).bind fun _ => ?_
    split
    · exact coupled_throw _
    · exact (setTable_confined inside db _ _).bind fun _ => coupled_pure _

theorem executeCreateTable_confined (inside : dbName = [] ∨ dbName ∈ D)
    (stmt : CreateTableStatement) : Confined D start start' (executeCreateTable stmt dbName) := by
  by_cases named : dbName = []
  · subst named
    exact confined_of_stops (p := noDatabaseSelected) fun _ => rfl
  · intro s s' beside
    have inside := inside.resolve_left named
    obtain ⟨db, here⟩ := Option.isSome_iff_exists.mp (beside.present dbName inside)
    have here' := (beside.inside dbName inside).symm.trans here
    have held := getOrCreateDatabase_eq s dbName
    have held' := getOrCreateDatabase_eq s' dbName
    rw [here] at held
    rw [here'] at held'
    rw [executeCreateTable_run named held, executeCreateTable_run named held']
    split
    · exact .error beside
    · exact .ok (beside.setDatabase inside _)

theorem executeDropTable_confined (inside : dbName = [] ∨ dbName ∈ D) (tableName : Bytes) :
    Confined D start start' (executeDropTable tableName dbName) := by
  by_cases named : dbName = []
  · subst named
    exact confined_of_stops (p := noDatabaseSelected) fun _ => rfl
  · have inside := inside.resolve_left named
    refine (selectedDatabase_confined inside named).bind fun db => ?_
    split
    · exact coupled_throw _
    · exact (coupled_modify fun _ _ beside => beside.setDatabase inside _).bind fun _ =>
        coupled_pure _

theorem executeShowTables_confined (inside : dbName = [] ∨ dbName ∈ D) :
    Confined D start start' (executeShowTables dbName) := by
  by_cases named : dbName = []
  · subst named
    exact confined_of_stops (p := noDatabaseSelected) fun _ => rfl
  · intro s s' beside
    rw [executeShowTables_run named, executeShowTables_run named,
      ← beside.inside dbName (inside.resolve_left named)]
    cases s.getDatabase dbName <;> exact .ok beside

theorem executeShowDatabases_confined
    (starts : ∀ d, start.hasDatabase d = start'.hasDatabase d) :
    Confined D start start' executeShowDatabases := by
  intro s s' beside
  have same := beside.names starts
  have ran (s : StorageEngine) : executeShowDatabases.run s =
    .ok (okPacket 0 (ascii "Databases: " ++ commaSeparated s.getDatabaseNames)) s := rfl
  rw [ran, ran, same]
  exact .ok beside

end Statements

/-! ## Sessions -/

/-- Two states of one session, on storages that agree on the databases. -/
structure Twin (D : Set Bytes) (start start' : StorageEngine) (e e' : Exec) : Prop where
  session : e.session = e'.session
  events : e.events = e'.events
  storage : Beside D start start' e.storage e'.storage

/-- The session is in one of these databases, or in none. -/
def Exec.Within (D : Set Bytes) (e : Exec) : Prop :=
  e.session.currentDatabase = [] ∨ e.session.currentDatabase ∈ D

section Sessions
variable {D : Set Bytes} {start start' : StorageEngine}

abbrev Paired {α : Type} (D : Set Bytes) (start start' : StorageEngine) (m : ExecM α) : Prop :=
  Coupled (Twin D start start') (Twin D start start') (Twin D start start') m m

theorem emit_paired (event : Event) : Paired D start start' (emit event) :=
  coupled_modify fun _ _ twin => ⟨twin.session, congrArg (· ++ [event]) twin.events, twin.storage⟩

theorem modifySession_paired (f : Session → Session) : Paired D start start' (modifySession f) :=
  coupled_modify fun _ _ twin => ⟨congrArg f twin.session, twin.events, twin.storage⟩

theorem nextSequenceId_paired : Paired D start start' nextSequenceId := by
  refine coupled_get_bind fun e e' twin => ?_
  rw [twin.session]
  exact (modifySession_paired _).bind (fun _ => coupled_pure _) e e' twin

theorem encodeNext_paired (encode : UInt8 → Buffer → Buffer) (response : Buffer) :
    Paired D start start' (encodeNext encode response) :=
  nextSequenceId_paired.bind fun _ => coupled_pure _

theorem sendResponse_paired (response : Buffer) : Paired D start start' (sendResponse response) := by
  unfold sendResponse
  split
  · exact emit_paired _
  · exact coupled_pure ()

theorem responseCallback_paired (response : Buffer) :
    Paired D start start' (responseCallback response) :=
  (emit_paired _).bind fun _ => sendResponse_paired response

theorem sendOk_paired (p : OkPacket) : Paired D start start' (sendOk p) :=
  (encodeNext_paired _ _).bind fun response => (responseCallback_paired response).bind fun _ =>
    coupled_pure true

theorem sendErr_paired (p : ErrPacket) : Paired D start start' (sendErr p) :=
  (encodeNext_paired _ _).bind fun response => (responseCallback_paired response).bind fun _ =>
    coupled_pure true

theorem onStorage_paired {α : Type} {body : StatementM α} (confined : Confined D start start' body) :
    Paired D start start' (onStorage body) := by
  intro e e' twin
  have ended := confined e.storage e'.storage twin.storage
  generalize first : body.run e.storage = r at ended
  generalize second : body.run e'.storage = r' at ended
  cases ended with
  | ok beside =>
      rw [onStorage_ok first, onStorage_ok second]
      exact .ok ⟨twin.session, twin.events, beside⟩
  | error beside =>
      rw [onStorage_error first, onStorage_error second]
      exact .ok ⟨twin.session, twin.events, beside⟩

theorem answer_paired {body : StatementM OkPacket} (confined : Confined D start start' body) :
    Paired D start start' (answer body) := by
  refine (onStorage_paired confined).bind fun result => ?_
  cases result with
  | ok p => exact sendOk_paired p
  | error p => exact sendErr_paired p

theorem getValue_paired (row : Row) (index : Nat) : Paired D start start' (getValue row index) := by
  unfold getValue
  split
  · exact coupled_pure _
  · exact coupled_throw _

theorem encodeResultSet_paired (result : SelectResult) (tableName dbName : Bytes) :
    Paired D start start' (encodeResultSet result tableName dbName) := by
  refine (encodeNext_paired _ _).bind fun response => ?_
  refine (coupled_foldlM (fun response col => encodeNext_paired _ _) _ _).bind fun response => ?_
  refine (encodeNext_paired _ _).bind fun response => ?_
  refine (coupled_foldlM (fun response row => ?_) _ _).bind fun response => encodeNext_paired _ _
  exact (coupled_mapM (getValue_paired row) _).bind fun projected => encodeNext_paired _ _

/-- From two states of a session that is within the databases. -/
abbrev Settled {α : Type} (D : Set Bytes) (start start' : StorageEngine) (m : ExecM α) : Prop :=
  Coupled (fun e e' => Twin D start start' e e' ∧ e.Within D) (Twin D start start')
    (Twin D start start') m m

theorem settled_of_paired {α : Type} {m : ExecM α} (paired : Paired D start start' m) :
    Settled D start start' m :=
  paired.mono (fun _ _ within => within.1) fun _ _ twin => twin

theorem executeSelect_settled (stmt : SelectStatement) :
    Settled D start start' (executeSelect stmt) := by
  refine coupled_get_bind fun e e' ⟨twin, inside⟩ => ?_
  rw [← twin.session]
  refine (onStorage_paired (selectRows_confined inside stmt)).bind (fun result => ?_) e e' twin
  cases result with
  | error p => exact sendErr_paired p
  | ok result =>
      exact (encodeResultSet_paired _ _ _).bind fun response =>
        (responseCallback_paired response).bind fun _ => coupled_pure true

theorem execute_settled (starts : ∀ d, start.hasDatabase d = start'.hasDatabase d)
    (stmt : Statement) : Settled D start start' (execute stmt) := by
  refine coupled_get_bind fun e e' ⟨twin, inside⟩ => ?_
  rw [← twin.session]
  cases stmt with
  | select stmt => exact executeSelect_settled stmt e e' ⟨twin, inside⟩
  | insert stmt => exact answer_paired (executeInsert_confined inside stmt) e e' twin
  | createTable stmt => exact answer_paired (executeCreateTable_confined inside stmt) e e' twin
  | dropTable tableName => exact answer_paired (executeDropTable_confined inside tableName) e e' twin
  | showTables => exact answer_paired (executeShowTables_confined inside) e e' twin
  | showDatabases => exact answer_paired (executeShowDatabases_confined starts) e e' twin
  | useDatabase databaseName =>
      exact (modifySession_paired _).bind (fun _ => sendOk_paired _) e e' twin

theorem handleQuery_settled (starts : ∀ d, start.hasDatabase d = start'.hasDatabase d)
    (query : Bytes) : Settled D start start' (handleQuery query) := by
  unfold handleQuery
  split
  · exact (coupled_throw _).mono (fun _ _ within => within.1) fun _ _ twin => twin
  · exact settled_of_paired (sendErr_paired _)
  · exact settled_of_paired (sendOk_paired _)
  · exact execute_settled starts _

theorem commandBody_settled (starts : ∀ d, start.hasDatabase d = start'.hasDatabase d)
    (cmdByte : UInt8) (text : Bytes) : Settled D start start' (commandBody cmdByte text) := by
  unfold commandBody
  split
  · exact settled_of_paired (sendOk_paired _)
  · exact settled_of_paired ((modifySession_paired _).bind fun _ => coupled_pure true)
  · exact handleQuery_settled starts text
  · exact settled_of_paired ((modifySession_paired _).bind fun _ => sendOk_paired _)
  · exact settled_of_paired ((sendErr_paired _).bind fun _ => coupled_pure false)

end Sessions

/-! ## Handlers -/

section Handlers
variable {D : Set Bytes} {start start' : StorageEngine}

/-- One input buffer, and two states of one session. -/
def Joined (D : Set Bytes) (start start' : StorageEngine) (c c' : Context) : Prop :=
  c.buffer = c'.buffer ∧ Twin D start start' c.exec c'.exec

def Seated (D : Set Bytes) (start start' : StorageEngine) (c c' : Context) : Prop :=
  c.buffer = c'.buffer ∧ Twin D start start' c.exec c'.exec ∧ c.exec.Within D

abbrev Isolating {α : Type} (D : Set Bytes) (start start' : StorageEngine) (m : HandlerM α) : Prop :=
  Coupled (Seated D start start') (Joined D start start') (Joined D start start') m m

theorem Seated.joined {c c' : Context} (seated : Seated D start start' c c') :
    Joined D start start' c c' := ⟨seated.1, seated.2.1⟩

theorem onExec_paired {α : Type} {m : ExecM α} (paired : Paired D start start' m) :
    Coupled (Joined D start start') (Joined D start start') (Joined D start start') (onExec m)
      (onExec m) := by
  intro c c' ⟨same, twin⟩
  have ended := paired c.exec c'.exec twin
  rw [onExec_run, onExec_run]
  generalize m.run c.exec = r at ended ⊢
  generalize m.run c'.exec = r' at ended ⊢
  cases ended with
  | ok twin => exact .ok ⟨same, twin⟩
  | error twin => exact .error ⟨same, twin⟩

theorem onExec_settled {α : Type} {m : ExecM α} (settled : Settled D start start' m) :
    Isolating D start start' (onExec m) := by
  intro c c' ⟨same, within⟩
  have ended := settled c.exec c'.exec within
  rw [onExec_run, onExec_run]
  generalize m.run c.exec = r at ended ⊢
  generalize m.run c'.exec = r' at ended ⊢
  cases ended with
  | ok twin => exact .ok ⟨same, twin⟩
  | error twin => exact .error ⟨same, twin⟩

theorem onBuffer_seated {α : Type} (m : BufferM α) :
    Coupled (Seated D start start') (Seated D start start') (Joined D start start') (onBuffer m)
      (onBuffer m) := by
  intro c c' ⟨same, within⟩
  rw [onBuffer_run, onBuffer_run, same]
  cases m.run c'.buffer with
  | ok a b => exact .ok ⟨rfl, within⟩
  | error e b => exact .error ⟨rfl, within.1⟩

theorem handleCommandByte_isolating (starts : ∀ d, start.hasDatabase d = start'.hasDatabase d)
    (cmdByte : UInt8) : Isolating D start start' (handleCommandByte cmdByte) := by
  intro c c' ⟨same, within⟩
  rw [handleCommandByte_run, handleCommandByte_run, same]
  exact onExec_settled (commandBody_settled starts cmdByte _) _ _ ⟨rfl, within⟩

theorem return_seated {α : Type} (a : α) : Isolating D start start' (pure a) :=
  (coupled_pure a).mono (fun _ _ seated => seated.joined) fun _ _ joined => joined

theorem dispatch_isolating (starts : ∀ d, start.hasDatabase d = start'.hasDatabase d) :
    Isolating D start start' dispatch := by
  refine coupled_get_bind fun c c' seated => ?_
  rw [seated.1]
  split
  · exact return_seated false c c' seated
  refine (onBuffer_seated _).bind (fun payloadLength => ?_) c c' seated
  refine (onBuffer_seated _).bind fun sequenceId => ?_
  refine Coupled.bind (M := Seated D start start') ?_ fun _ => coupled_get_bind fun c c' seated => ?_
  · intro c c' ⟨same, twin, inside⟩
    have received := congrArg (fun s : Session => { s with sequenceId := sequenceId }) twin.session
    exact .ok ⟨same, ⟨received, twin.events, twin.storage⟩, inside⟩
  · rw [seated.1]
    split
    · exact return_seated false c c' seated
    · split
      · exact return_seated false c c' seated
      · exact (onBuffer_seated _).bind (fun _ => handleCommandByte_isolating starts _) c c' seated

end Handlers

end TinySql
