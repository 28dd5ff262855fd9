import TinySql.Command.Answers
import TinySql.Command.Catalog
import TinySql.Command.InsertedRow
import TinySql.Lib.Run

/-!
# The storage engine keeps a catalog

Statements of any sessions, one after the other on the one storage engine, have the effects on the
catalog and the replies that the catalog says they have.
-/

namespace TinySql
open Directory Run StorageEngine

/-! ## The catalog of a storage engine -/

def Database.part (db : Database) : Bytes → Option Table := fun n => db.getTable n

namespace StorageEngine

def catalog (s : StorageEngine) : Catalog := fun d => (s.getDatabase d).map Database.part

variable {s : StorageEngine} {d n : Bytes} {db : Database} {t : Table}

theorem catalog_lookup (s : StorageEngine) (d n : Bytes) : s.catalog.lookup d n = s.getTable d n := by
  simp only [Directory.lookup, catalog, getTable, Option.bind_map]
  rfl

theorem mem_parts : d ∈ s.catalog.parts ↔ (s.getDatabase d).isSome := by
  simp [parts, catalog]

theorem mem_entries (here : s.getDatabase d = some db) : n ∈ s.catalog.entries d ↔ db.hasTable n := by
  rw [entries, Set.mem_ofPred_eq, catalog_lookup, getTable_of_getDatabase here, Database.hasTable]

theorem catalog_setDatabase (s : StorageEngine) (d : Bytes) (db : Database) :
    (s.setDatabase d db).catalog = Function.update s.catalog d (some db.part) := by
  funext d'
  by_cases same : d' = d
  · subst same
    simp [catalog]
  · simp [catalog, getDatabase_setDatabase_ne s db same, same]

theorem part_insert (db : Database) (n : Bytes) (t : Table) :
    Database.part { db with tables := db.tables.insert n t } =
      Function.update db.part n (some t) := by
  funext n'
  by_cases same : n' = n
  · subst same
    simp [Database.part, Database.getTable]
  · simp [Database.part, Database.getTable, AList.lookup_insert_ne same, same]

theorem part_erase (db : Database) (n : Bytes) :
    Database.part { db with tables := db.tables.erase n } = Function.update db.part n none := by
  funext n'
  by_cases same : n' = n
  · subst same
    simp [Database.part, Database.getTable]
  · simp [Database.part, Database.getTable, AList.lookup_erase_ne same, same]

theorem catalog_setTable (here : s.getDatabase d = some db) (n : Bytes) (t : Table) :
    (s.setTable d db n t).catalog = s.catalog.put d n t := by
  rw [setTable, catalog_setDatabase, part_insert]
  simp [put, catalog, here]

end StorageEngine

/-! ## Statements -/

def Obeys (body : StatementM OkPacket) (dbName : Bytes) (stmt : Statement) (s : StorageEngine) : Prop :=
  (∃ id message s', body.run s = .ok (okPacket id message) s' ∧
    s.catalog.Does dbName stmt (.ok message) s'.catalog) ∨
  ∃ p s', body.run s = .error p s' ∧ s.catalog.Does dbName stmt .err s'.catalog

section Obeys
variable {s : StorageEngine} {dbName : Bytes}

theorem foldl_addColumn_counter (columns : List ColumnDefinition) (t : Table) :
    (columns.foldl (fun t astCol => t.addColumn (columnDef astCol)) t).nextAutoIncrement =
      t.nextAutoIncrement := by
  induction columns generalizing t with
  | nil => rfl
  | cons astCol rest ih => exact ih (t.addColumn (columnDef astCol))

theorem newTable_fresh (stmt : CreateTableStatement) : (newTable stmt).Fresh stmt where
  name := newTable_name stmt
  columns := newTable_columns stmt
  rows := newTable_rows stmt
  counter := foldl_addColumn_counter stmt.columns _

theorem createTable_obeys (stmt : CreateTableStatement) (dbName : Bytes) (s : StorageEngine) :
    Obeys (executeCreateTable stmt dbName) dbName (.createTable stmt) s := by
  by_cases named : dbName = []
  · subst named
    exact .inr ⟨noDatabaseSelected, s, rfl, .createTable_refused (.inl rfl)⟩
  · have held := getOrCreateDatabase_eq s dbName
    cases here : s.getDatabase dbName with
    | some db =>
        rw [here] at held
        have ran := @executeCreateTable_run _ _ _ _ stmt named held
        by_cases taken : db.hasTable stmt.tableName = true
        · rw [if_pos taken] at ran
          have there := (mem_entries here).mpr taken
          exact .inr ⟨_, _, ran, .createTable_refused (.inr there)⟩
        · rw [if_neg taken] at ran
          have free : stmt.tableName ∉ s.catalog.entries dbName := fun there =>
            taken ((mem_entries here).mp there)
          refine .inl ⟨0, [], _, ran, ?_⟩
          rw [catalog_setTable here]
          exact .createTable named free (newTable_fresh stmt)
    | none =>
        rw [here] at held
        have ran := @executeCreateTable_run _ _ _ _ stmt named held
        have empty : (Database.create dbName).hasTable stmt.tableName = false := rfl
        rw [if_neg (by simp [empty])] at ran
        have absent : s.catalog dbName = none := by simp [catalog, here]
        have free : stmt.tableName ∉ s.catalog.entries dbName := by simp [entries, lookup, absent]
        refine .inl ⟨0, [], _, ran, ?_⟩
        rw [catalog_setTable (getDatabase_setDatabase _ _ _), catalog_setDatabase]
        have made : (Database.create dbName).part = fun _ => none := rfl
        rw [made, put_made absent]
        exact .createTable named free (newTable_fresh stmt)

theorem dropTable_obeys (tableName dbName : Bytes) (s : StorageEngine) :
    Obeys (executeDropTable tableName dbName) dbName (.dropTable tableName) s := by
  rcases selectedDatabase_cases dbName s with ⟨db, named, here⟩ | ⟨absent, p, -, stops⟩
  · have ran := @executeDropTable_run _ _ _ tableName named here
    by_cases there : db.hasTable tableName = true
    · simp only [Database.dropTable, if_pos there] at ran
      refine .inl ⟨0, [], _, ran, ?_⟩
      have after : Function.update s.catalog dbName (some (Function.update db.part tableName none)) =
          s.catalog.remove dbName tableName := by
        simp [remove, catalog, here]
      rw [catalog_setDatabase, part_erase, after]
      exact .dropTable named ((mem_entries here).mpr there)
    · simp only [Database.dropTable, if_neg there] at ran
      have absent : tableName ∉ s.catalog.entries dbName := fun member =>
        there ((mem_entries here).mp member)
      exact .inr ⟨_, s, ran, .dropTable_refused (.inr absent)⟩
  · refine .inr ⟨p, s, ?_, .dropTable_refused (absent.imp_right fun none => ?_)⟩
    · simp only [executeDropTable, EStateM.run_bind, stops]
    · simp [entries, lookup, catalog, none]

theorem insert_obeys (stmt : InsertStatement) (dbName : Bytes) (s : StorageEngine) :
    Obeys (executeInsert stmt dbName) dbName (.insert stmt) s := by
  rcases executeInsert_cases stmt dbName s with ⟨db, t, named, here, there⟩ | ⟨-, p, -, stops⟩
  · have ran := executeInsert_spec named here there
    have found : s.catalog.lookup dbName stmt.tableName = some t := by
      rw [catalog_lookup, getTable_of_getDatabase here, there]
    cases known : sources stmt t.columns with
    | none =>
        rw [known] at ran
        exact .inr ⟨_, _, ran, .insert_refused⟩
    | some srcs =>
        rw [known] at ran
        dsimp only at ran
        split at ran
        · refine .inr ⟨_, _, ran, ?_⟩
          rw [catalog_setTable here]
          exact .insert named found rfl
        · refine .inl ⟨1, [], _, ran, ?_⟩
          rw [catalog_setTable here]
          exact .insert named found rfl
  · exact .inr ⟨p, s, stops, .insert_refused⟩

theorem executeShowTables_run (named : dbName ≠ []) : (executeShowTables dbName).run s =
    match s.getDatabase dbName with
    | none => .ok (okPacket 0 (ascii "No tables in database")) s
    | some db => .ok (okPacket 0 (tablesMessage dbName db.getTableNames)) s := by
  simp only [executeShowTables, if_neg named, EStateM.run_bind, EStateM.run_get]
  cases s.getDatabase dbName <;> rfl

theorem showTables_obeys (dbName : Bytes) (s : StorageEngine) :
    Obeys (executeShowTables dbName) dbName .showTables s := by
  by_cases named : dbName = []
  · subst named
    exact .inr ⟨noDatabaseSelected, s, rfl, .showTables_refused rfl⟩
  · left
    have ran := @executeShowTables_run s _ named
    cases here : s.getDatabase dbName with
    | none =>
        rw [here] at ran
        refine ⟨0, _, s, ran, .showTables_none named ?_⟩
        simp [mem_parts, here]
    | some db =>
        rw [here] at ran
        refine ⟨0, tablesMessage dbName db.getTableNames, s, ran, .showTables named ?_ ?_⟩
        · simp [mem_parts, here]
        · apply lists_insertionSort db.tables.keys_nodup
          intro n
          rw [mem_entries here, Database.hasTable, Database.getTable, AList.lookup_isSome]
          rfl

theorem showDatabases_obeys (dbName : Bytes) (s : StorageEngine) :
    Obeys executeShowDatabases dbName .showDatabases s := by
  refine .inl ⟨0, _, s, rfl, .showDatabases ?_⟩
  apply lists_insertionSort s.databases.keys_nodup
  intro d
  rw [mem_parts, getDatabase, AList.lookup_isSome]
  rfl

end Obeys

/-! ## Sessions -/

/-- The sessions of the server, and the one storage engine behind them. -/
structure System where
  sessions : Nat → Session
  storage : StorageEngine

def Reply.Payload : Reply → Bytes → Prop
  | .ok message, payload => ∃ id, payload = (okPacket id message).payload
  | .err, payload => ∃ p : ErrPacket, payload = p.payload

namespace System

def exec (i : Nat) (s : System) : Exec := ⟨s.sessions i, s.storage, []⟩

def world (s : System) : World where
  catalog := s.storage.catalog
  current i := (s.sessions i).currentDatabase

def after (i : Nat) (e : Exec) (s : System) : System :=
  ⟨Function.update s.sessions i e.session, e.storage⟩

/-- A session executes a statement, which is answered by one packet. -/
def Step (s : System) (label : World.Label) (s' : System) : Prop :=
  ∃ payload e, label.2.Payload payload ∧
    (execute label.1.2).run (s.exec label.1.1) = .ok true e ∧
    e.events = [.respond (packet (s.sessions label.1.1).sequenceId payload),
      .send (packet (s.sessions label.1.1).sequenceId payload)] ∧ s' = s.after label.1.1 e

variable {s : System} {i : Nat} {e : Exec}

theorem world_after (same : e.session.currentDatabase = (s.sessions i).currentDatabase) :
    (s.after i e).world = { s.world with catalog := e.storage.catalog } := by
  simp only [world, after, World.mk.injEq, true_and]
  funext j
  by_cases here : j = i
  · subst here
    simpa using same
  · simp [here]

theorem step_of_obeys {body : StatementM OkPacket} {stmt : Statement}
    (ran : (execute stmt).run (s.exec i) = (answer body).run (s.exec i))
    (obeys : Obeys body (s.sessions i).currentDatabase stmt s.storage) :
    ∃ reply s', Step s ((i, stmt), reply) s' ∧ World.Step s.world ((i, stmt), reply) s'.world := by
  rcases obeys with ⟨id, message, storage, ends, does⟩ | ⟨p, storage, ends, does⟩
  · refine ⟨.ok message, _, ⟨_, _, ⟨id, rfl⟩, ran.trans (answer_run_ok ends), rfl, rfl⟩, ?_⟩
    rw [world_after rfl]
    exact .statement does
  · refine ⟨.err, _, ⟨_, _, ⟨p, rfl⟩, ran.trans (answer_run_error ends), rfl, rfl⟩, ?_⟩
    rw [world_after rfl]
    exact .statement does

theorem world_selected (name : Bytes) {bytes : Bytes} :
    (s.after i (((s.exec i).selected name).responded bytes)).world =
      { s.world with current := Function.update s.world.current i name } := by
  simp only [world, after, World.mk.injEq]
  refine ⟨rfl, ?_⟩
  funext j
  by_cases here : j = i
  · subst here
    simp [Exec.responded, Exec.counted, Exec.selected]
  · simp [here]

theorem exists_step (s : System) (i : Nat) {stmt : Statement} (plain : ∀ query, stmt ≠ .select query) :
    ∃ reply s', Step s ((i, stmt), reply) s' ∧ World.Step s.world ((i, stmt), reply) s'.world := by
  cases stmt with
  | select query => exact absurd rfl (plain query)
  | insert stmt => exact step_of_obeys (execute_insert_run stmt _) (insert_obeys stmt _ _)
  | createTable stmt =>
      exact step_of_obeys (execute_createTable_run stmt _) (createTable_obeys stmt _ _)
  | dropTable tableName =>
      exact step_of_obeys (execute_dropTable_run tableName _) (dropTable_obeys tableName _ _)
  | showTables =>
      refine step_of_obeys ?_ (showTables_obeys _ _)
      rw [execute, Frame.run_get_bind]
      rfl
  | showDatabases =>
      refine step_of_obeys ?_ (showDatabases_obeys _ _)
      rw [execute, Frame.run_get_bind]
  | useDatabase name =>
      refine ⟨.ok (ascii "Database changed to: " ++ name), _,
        ⟨_, _, ⟨0, rfl⟩, execute_useDatabase_run name (s.exec i), rfl, rfl⟩, ?_⟩
      rw [world_selected]
      exact .useDatabase

/-- Statements of any sessions in any order, executed on the storage engine, are statements on the
catalog with the same replies. -/
theorem catalog_refined (s : System) (commands : List (Nat × Statement))
    (plain : ∀ command ∈ commands, ∀ query, command.2 ≠ .select query) :
    ∃ run s', run.map Prod.fst = commands ∧ Runs Step s run s' ∧
      Runs World.Step s.world run s'.world := by
  induction commands generalizing s with
  | nil => exact ⟨[], s, rfl, .nil s, .nil s.world⟩
  | cons command rest ih =>
      obtain ⟨i, stmt⟩ := command
      obtain ⟨reply, s', first, does⟩ := exists_step s i (plain _ List.mem_cons_self)
      obtain ⟨run, s'', same, runs, refined⟩ :=
        ih s' fun command member => plain command (List.mem_cons_of_mem _ member)
      exact ⟨((i, stmt), reply) :: run, s'', by simp [same], .cons first runs, .cons does refined⟩

theorem catalog_refined_twice : ∃ run s',
    run.map Prod.fst = [(0, .useDatabase (ascii "a")), (1, .useDatabase (ascii "a")),
      (0, .createTable ⟨ascii "t", []⟩), (1, .dropTable (ascii "t")), (0, .showTables)] ∧
    Runs Step ⟨fun i => { connectionId := UInt32.ofNat i }, initial⟩ run s' ∧
    Runs World.Step (System.world ⟨fun i => { connectionId := UInt32.ofNat i }, initial⟩) run
      s'.world :=
  catalog_refined _ _ (by simp)

end System

end TinySql
