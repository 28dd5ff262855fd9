import TinySql.Command.Executor

/-!
# What statements do to the storage

The run of each statement that touches a table, and what it leaves true of all tables.
-/

namespace TinySql

namespace StorageEngine

def getTable (dbName tableName : Bytes) (s : StorageEngine) : Option Table :=
  (s.getDatabase dbName).bind (·.getTable tableName)

def Every (P : Table → Prop) (s : StorageEngine) : Prop :=
  ∀ dbName tableName t, s.getTable dbName tableName = some t → P t

theorem getTable_of_getDatabase {s : StorageEngine} {d : Bytes} {db : Database}
    (here : s.getDatabase d = some db) (n : Bytes) : s.getTable d n = db.getTable n := by
  rw [getTable, here, Option.bind_some]

theorem getTable_setDatabase (s : StorageEngine) (d n : Bytes) (db : Database) :
    (s.setDatabase d db).getTable d n = db.getTable n :=
  getTable_of_getDatabase (getDatabase_setDatabase s d db) n

@[simp] theorem getTable_setTable (s : StorageEngine) (d n : Bytes) (db : Database) (t : Table) :
    (s.setTable d db n t).getTable d n = some t := by
  rw [setTable, getTable_setDatabase, Database.getTable, AList.lookup_insert]

@[simp] theorem setTable_setTable (s : StorageEngine) (d n : Bytes) (db : Database)
    (t t' : Table) : (s.setTable d db n t).setTable d db n t' = s.setTable d db n t' := by
  simp [setTable, setDatabase]

theorem getTable_setDatabase_ne (s : StorageEngine) {d d' : Bytes} (n : Bytes) (db : Database)
    (other : d' ≠ d) : (s.setDatabase d db).getTable d' n = s.getTable d' n := by
  rw [getTable, getDatabase_setDatabase_ne s db other, getTable]

theorem getTable_setTable_ne {s : StorageEngine} {d d' n n' : Bytes} {db : Database} {t : Table}
    (here : s.getDatabase d = some db) (other : ¬ (d' = d ∧ n' = n)) :
    (s.setTable d db n t).getTable d' n' = s.getTable d' n' := by
  by_cases same : d' = d
  · subst same
    rw [setTable, getTable_setDatabase, getTable_of_getDatabase here]
    exact AList.lookup_insert_ne fun both => other ⟨rfl, both⟩
  · exact getTable_setDatabase_ne s n' _ same

theorem hasDatabase_setDatabase (s : StorageEngine) (d d' : Bytes) (db : Database) :
    (s.setDatabase d db).hasDatabase d' = (decide (d' = d) || s.hasDatabase d') := by
  by_cases same : d' = d
  · subst same
    simp [hasDatabase]
  · simp [hasDatabase, getDatabase_setDatabase_ne s db same, same]

theorem hasDatabase_setDatabase_of_has {s : StorageEngine} {d : Bytes} (db : Database)
    (there : s.hasDatabase d = true) (d' : Bytes) :
    (s.setDatabase d db).hasDatabase d' = s.hasDatabase d' := by
  rw [hasDatabase_setDatabase]
  by_cases same : d' = d
  · subst same
    rw [there, Bool.or_true]
  · simp [same]

section Every
variable {P : Table → Prop} {s : StorageEngine} {d n : Bytes} {db : Database} {t : Table}

theorem Every.setDatabase (every : s.Every P)
    (inside : ∀ n t, db.getTable n = some t → P t) : (s.setDatabase d db).Every P := by
  intro d' n t found
  by_cases same : d' = d
  · subst same
    rw [getTable_setDatabase] at found
    exact inside n t found
  · rw [getTable, getDatabase_setDatabase_ne s db same] at found
    exact every d' n t found

theorem Every.inside (every : s.Every P) (here : s.getDatabase d = some db) :
    ∀ n t, db.getTable n = some t → P t := by
  intro n t found
  exact every d n t (by rw [getTable_of_getDatabase here, found])

theorem Every.setTable (every : s.Every P) (here : s.getDatabase d = some db) (holds : P t) :
    (s.setTable d db n t).Every P := by
  refine every.setDatabase fun n' t' found => ?_
  by_cases same : n' = n
  · subst same
    obtain rfl : t = t' := by simpa [Database.getTable] using found
    exact holds
  · rw [Database.getTable, AList.lookup_insert_ne same] at found
    exact every.inside here n' t' found

theorem every_initial : initial.Every P := by
  have empty (n d : Bytes) : (Database.create d).getTable n = none := rfl
  have start : (StorageEngine.mk ∅).Every P := fun d n t found => nomatch found
  refine Every.setDatabase (Every.setDatabase start ?_) ?_ <;>
  · intro n t found
    rw [empty] at found
    cases found

end Every

end StorageEngine

open StorageEngine

variable {s : StorageEngine} {dbName : Bytes} {db : Database} {table : Table}

theorem modify_run {ε σ : Type} (f : σ → σ) (s : σ) :
    (modify f : EStateM ε σ Unit).run s = .ok () (f s) := rfl

theorem ofExcept_ok_run {α : Type} (a : α) : (ofExcept (.ok a)).run s = .ok a s := rfl

theorem selectedDatabase_run (named : dbName ≠ []) (here : s.getDatabase dbName = some db) :
    (selectedDatabase dbName).run s = .ok db s := by
  simp only [selectedDatabase, if_neg named, EStateM.run_bind, EStateM.run_get, here]
  rfl

theorem selectedDatabase_absent (named : dbName ≠ []) (absent : s.getDatabase dbName = none) :
    (selectedDatabase dbName).run s = .error (unknownDatabase dbName) s := by
  simp only [selectedDatabase, if_neg named, EStateM.run_bind, EStateM.run_get, absent]
  rfl

theorem existingTable_absent {tableName : Bytes} (absent : db.getTable tableName = none) :
    (existingTable dbName db tableName).run s = .error (tableDoesntExist dbName tableName) s := by
  simp only [existingTable, absent]
  rfl

theorem existingTable_run {tableName : Bytes} (there : db.getTable tableName = some table) :
    (existingTable dbName db tableName).run s = .ok table s := by
  simp only [existingTable, there, EStateM.run_pure]

theorem onStorage_ok {α : Type} {body : StatementM α} {e : Exec} {a : α}
    (run : body.run e.storage = .ok a s) :
    (onStorage body).run e = .ok (.ok a) { e with storage := s } := by
  rw [EStateM.run, onStorage, run]

theorem onStorage_error {α : Type} {body : StatementM α} {e : Exec} {p : ErrPacket}
    (run : body.run e.storage = .error p s) :
    (onStorage body).run e = .ok (.error p) { e with storage := s } := by
  rw [EStateM.run, onStorage, run]

inductive Missing : ErrPacket → Prop where
  | noDatabaseSelected : Missing noDatabaseSelected
  | unknownDatabase (dbName : Bytes) : Missing (unknownDatabase dbName)
  | tableDoesntExist (dbName tableName : Bytes) : Missing (tableDoesntExist dbName tableName)

theorem Missing.errorCode {e : ErrPacket} (missing : Missing e) :
    e.errorCode = 1046 ∨ e.errorCode = 1049 ∨ e.errorCode = 1146 := by
  cases missing with
  | noDatabaseSelected => exact .inl rfl
  | unknownDatabase => exact .inr (.inl rfl)
  | tableDoesntExist => exact .inr (.inr rfl)

theorem selectedDatabase_cases (dbName : Bytes) (s : StorageEngine) :
    (∃ db, dbName ≠ [] ∧ s.getDatabase dbName = some db) ∨
      (dbName = [] ∨ s.getDatabase dbName = none) ∧
        ∃ e, Missing e ∧ (selectedDatabase dbName).run s = .error e s := by
  by_cases named : dbName = []
  · subst named
    exact .inr ⟨.inl rfl, _, .noDatabaseSelected, rfl⟩
  · cases here : s.getDatabase dbName with
    | some db => exact .inl ⟨db, named, rfl⟩
    | none =>
        exact .inr ⟨.inr rfl, _, .unknownDatabase dbName, selectedDatabase_absent named here⟩

theorem existingTable_cases (dbName tableName : Bytes) (db : Database) (s : StorageEngine) :
    (∃ table, db.getTable tableName = some table) ∨
      db.getTable tableName = none ∧
        ∃ e, Missing e ∧ (existingTable dbName db tableName).run s = .error e s := by
  cases there : db.getTable tableName with
  | some table => exact .inl ⟨table, rfl⟩
  | none => exact .inr ⟨rfl, _, .tableDoesntExist dbName tableName, existingTable_absent there⟩

/-! ## Rows that an INSERT builds -/

structure SameRows (t t' : Table) : Prop where
  columns : t'.columns = t.columns
  rows : t'.rows = t.rows

theorem namedCell_sameRows (given : List (Bytes × Expression)) (col : ColumnDef) (t : Table) :
    SameRows t (namedCell given col t).2 := by
  unfold namedCell
  split
  · exact ⟨rfl, rfl⟩
  · split <;> exact ⟨rfl, rfl⟩

theorem namedRow_sameRows (given : List (Bytes × Expression)) (cols : List ColumnDef)
    (t : Table) : SameRows t (namedRow given cols t).2 := by
  induction cols generalizing t with
  | nil => exact ⟨rfl, rfl⟩
  | cons col rest ih =>
      have first := namedCell_sameRows given col t
      have later := ih (namedCell given col t).2
      exact ⟨later.columns.trans first.columns, later.rows.trans first.rows⟩

theorem namedRow_length (given : List (Bytes × Expression)) (cols : List ColumnDef) (t : Table) :
    (namedRow given cols t).1.length = cols.length := by
  induction cols generalizing t with
  | nil => rfl
  | cons col rest ih => simp only [namedRow, List.length_cons, ih]

/-- Each column gets its cell, with the counter as the columns before it have left it. -/
theorem namedRow_getElem? {given : List (Bytes × Expression)} {cols : List ColumnDef} {i : Nat}
    {col : ColumnDef} (column : cols[i]? = some col) (t : Table) :
    ∃ t', (namedRow given cols t).1[i]? = some (namedCell given col t').1 := by
  induction cols generalizing i t with
  | nil => cases column
  | cons first rest ih =>
      cases i with
      | zero =>
          obtain rfl : first = col := by simpa using column
          exact ⟨t, rfl⟩
      | succ i => exact ih (by simpa using column) _

theorem buildRow_cases (stmt : InsertStatement) (table : Table) :
    buildRow stmt table = .error columnCountMismatch ∨
      ∃ row table', buildRow stmt table = .ok (row, table') ∧
        row.length = table.columns.length ∧ SameRows table table' := by
  unfold buildRow
  split_ifs with named counts counts
  · exact .inl rfl
  · exact .inr ⟨_, _, rfl, namedRow_length _ _ _, namedRow_sameRows _ _ _⟩
  · exact .inl rfl
  · refine .inr ⟨_, _, rfl, ?_, rfl, rfl⟩
    rw [List.length_zipWith, not_ne_iff.mp counts, Nat.min_self]

/-! ## The run of each statement -/

theorem selectRows_run {stmt : SelectStatement} (named : dbName ≠ [])
    (here : s.getDatabase dbName = some db) (there : db.getTable stmt.tableName = some table) :
    (selectRows stmt dbName).run s =
      match resolveColumns table stmt.columns with
      | .error p => .error p s
      | .ok columns =>
          match filterRows (matchesWhere stmt.whereClause table.columns) table.rows with
          | .error e => .error (whereError e) s
          | .ok kept => .ok ⟨columns.map Prod.fst, columns.map Prod.snd,
              applyLimit stmt.offset stmt.limit kept⟩ s := by
  simp only [selectRows, EStateM.run_bind, selectedDatabase_run named here,
    existingTable_run there]
  cases resolveColumns table stmt.columns with
  | error p => rfl
  | ok columns =>
      simp only [ofExcept_ok_run]
      cases filterRows (matchesWhere stmt.whereClause table.columns) table.rows with
      | error e => rfl
      | ok kept => rfl

/-- All that a SELECT can do. -/
theorem selectRows_ends (stmt : SelectStatement) (dbName : Bytes) (s : StorageEngine) :
    (∃ p, (selectRows stmt dbName).run s = .error p s) ∨ ∃ table columns kept,
      s.getTable dbName stmt.tableName = some table ∧
      resolveColumns table stmt.columns = .ok columns ∧
      filterRows (matchesWhere stmt.whereClause table.columns) table.rows = .ok kept ∧
      (selectRows stmt dbName).run s = .ok ⟨columns.map Prod.fst, columns.map Prod.snd,
        applyLimit stmt.offset stmt.limit kept⟩ s := by
  rcases selectedDatabase_cases dbName s with ⟨db, named, here⟩ | ⟨-, e, -, stops⟩
  · rcases existingTable_cases dbName stmt.tableName db s with ⟨table, there⟩ | ⟨-, e, -, stops⟩
    · have found := (getTable_of_getDatabase here stmt.tableName).trans there
      have ran := selectRows_run named here there
      cases resolved : resolveColumns table stmt.columns with
      | error p =>
          rw [resolved] at ran
          exact .inl ⟨p, ran⟩
      | ok columns =>
          rw [resolved] at ran
          cases filtered : filterRows (matchesWhere stmt.whereClause table.columns) table.rows with
          | error e =>
              rw [filtered] at ran
              exact .inl ⟨whereError e, ran⟩
          | ok kept =>
              rw [filtered] at ran
              exact .inr ⟨table, columns, kept, found, resolved, filtered, ran⟩
    · refine .inl ⟨e, ?_⟩
      simp only [selectRows, EStateM.run_bind, selectedDatabase_run named here, stops]
  · refine .inl ⟨e, ?_⟩
    simp only [selectRows, EStateM.run_bind, stops]

theorem executeInsert_run {stmt : InsertStatement} (named : dbName ≠ [])
    (here : s.getDatabase dbName = some db) (there : db.getTable stmt.tableName = some table) :
    (executeInsert stmt dbName).run s =
      match buildRow stmt table with
      | .error e => .error e s
      | .ok (row, table) =>
          match table.insertRow row with
          | none => .error failedToInsert (s.setTable dbName db stmt.tableName table)
          | some table => .ok (okPacket 1 []) (s.setTable dbName db stmt.tableName table) := by
  simp only [executeInsert, EStateM.run_bind, selectedDatabase_run named here,
    existingTable_run there]
  cases built : buildRow stmt table with
  | error e => rfl
  | ok pair =>
      obtain ⟨row, table'⟩ := pair
      simp only [ofExcept_ok_run, modify_run]
      cases inserted : table'.insertRow row with
      | none => rfl
      | some table'' => simp only [EStateM.run_bind, modify_run, setTable_setTable, EStateM.run_pure]

theorem executeInsert_cases (stmt : InsertStatement) (dbName : Bytes) (s : StorageEngine) :
    (∃ db table, dbName ≠ [] ∧ s.getDatabase dbName = some db ∧
      db.getTable stmt.tableName = some table) ∨
      (dbName = [] ∨ s.getTable dbName stmt.tableName = none) ∧
        ∃ e, Missing e ∧ (executeInsert stmt dbName).run s = .error e s := by
  rcases selectedDatabase_cases dbName s with ⟨db, named, here⟩ | ⟨absent, e, missing, stops⟩
  · rcases existingTable_cases dbName stmt.tableName db s with
      ⟨table, there⟩ | ⟨absent, e, missing, stops⟩
    · exact .inl ⟨db, table, named, here, there⟩
    · refine .inr ⟨.inr ((getTable_of_getDatabase here _).trans absent), e, missing, ?_⟩
      simp only [executeInsert, EStateM.run_bind, selectedDatabase_run named here, stops]
  · refine .inr ⟨absent.imp id fun none => by rw [getTable, none, Option.bind_none], e, missing, ?_⟩
    simp only [executeInsert, EStateM.run_bind, stops]

theorem getOrCreateDatabase_cases (s : StorageEngine) (dbName : Bytes) : ∃ db s',
    s.getOrCreateDatabase dbName = (some db, s') ∧ s'.getDatabase dbName = some db ∧
      ∀ P, s.Every P → s'.Every P := by
  rw [getOrCreateDatabase_eq]
  cases here : s.getDatabase dbName with
  | some db => exact ⟨db, s, rfl, here, fun _ every => every⟩
  | none =>
      refine ⟨_, _, rfl, getDatabase_setDatabase _ _ _, fun P every => every.setDatabase ?_⟩
      exact fun n t found => nomatch found

theorem foldl_addColumn (columns : List ColumnDefinition) (t : Table) :
    let t' := columns.foldl (fun t astCol => t.addColumn (columnDef astCol)) t
    t'.name = t.name ∧ t'.rows = t.rows ∧ t'.columns = t.columns ++ columns.map columnDef := by
  induction columns generalizing t with
  | nil => exact ⟨rfl, rfl, (List.append_nil _).symm⟩
  | cons astCol rest ih =>
      obtain ⟨name, rows, columns⟩ := ih (t.addColumn (columnDef astCol))
      refine ⟨name, rows, columns.trans ?_⟩
      rw [Table.addColumn, List.append_assoc, List.map_cons, List.singleton_append]

theorem newTable_name (stmt : CreateTableStatement) : (newTable stmt).name = stmt.tableName :=
  (foldl_addColumn stmt.columns _).1

theorem newTable_rows (stmt : CreateTableStatement) : (newTable stmt).rows = [] :=
  (foldl_addColumn stmt.columns _).2.1

theorem newTable_columns (stmt : CreateTableStatement) :
    (newTable stmt).columns = stmt.columns.map columnDef :=
  (foldl_addColumn stmt.columns _).2.2

def tableExists (tableName : Bytes) : ErrPacket :=
  .create 1050 (ascii "42S01") (ascii "Table '" ++ tableName ++ ascii "' already exists")

theorem executeCreateTable_run {s' : StorageEngine} {stmt : CreateTableStatement}
    (named : dbName ≠ []) (held : s.getOrCreateDatabase dbName = (some db, s')) :
    (executeCreateTable stmt dbName).run s =
      if db.hasTable stmt.tableName then .error (tableExists stmt.tableName) s'
      else .ok (okPacket 0 []) (s'.setTable dbName db stmt.tableName (newTable stmt)) := by
  simp only [executeCreateTable, if_neg named, EStateM.run_bind, EStateM.run_get, held]
  by_cases taken : db.hasTable stmt.tableName = true
  · simp only [if_pos taken]
    rfl
  · have created : db.createTable (newTable stmt) =
        some { db with tables := db.tables.insert stmt.tableName (newTable stmt) } := by
      simp only [Database.createTable, newTable_name, if_neg taken]
    simp only [if_neg taken, created]
    rfl

def unknownTable (tableName : Bytes) : ErrPacket :=
  .create 1051 (ascii "42S02") (ascii "Unknown table '" ++ tableName ++ ascii "'")

theorem executeDropTable_run {tableName : Bytes} (named : dbName ≠ [])
    (here : s.getDatabase dbName = some db) : (executeDropTable tableName dbName).run s =
      match db.dropTable tableName with
      | none => .error (unknownTable tableName) s
      | some db' => .ok (okPacket 0 []) (s.setDatabase dbName db') := by
  simp only [executeDropTable, EStateM.run_bind, selectedDatabase_run named here]
  cases db.dropTable tableName <;> rfl

theorem executeDropTable_cases (tableName dbName : Bytes) (s : StorageEngine) :
    (∃ db db', s.getDatabase dbName = some db ∧ db.dropTable tableName = some db' ∧
      (executeDropTable tableName dbName).run s = .ok (okPacket 0 []) (s.setDatabase dbName db')) ∨
      ∃ e, (executeDropTable tableName dbName).run s = .error e s := by
  rcases selectedDatabase_cases dbName s with ⟨db, named, here⟩ | ⟨-, e, -, stops⟩
  · have ran := @executeDropTable_run _ _ _ tableName named here
    cases dropped : db.dropTable tableName with
    | some db' =>
        rw [dropped] at ran
        exact .inl ⟨db, db', here, dropped, ran⟩
    | none =>
        rw [dropped] at ran
        exact .inr ⟨_, ran⟩
  · refine .inr ⟨e, ?_⟩
    simp only [executeDropTable, EStateM.run_bind, stops]

theorem dropTable_inside {P : Table → Prop} {tableName : Bytes} {db' : Database}
    (inside : ∀ n t, db.getTable n = some t → P t) (dropped : db.dropTable tableName = some db') :
    ∀ n t, db'.getTable n = some t → P t := by
  intro n t found
  simp only [Database.dropTable] at dropped
  split at dropped
  · obtain rfl : { db with tables := db.tables.erase tableName } = db' := by simpa using dropped
    by_cases same : n = tableName
    · subst same
      simp [Database.getTable] at found
    · rw [Database.getTable, AList.lookup_erase_ne same] at found
      exact inside n t found
  · cases dropped

end TinySql
