import TinySql.Command.Answers
import TinySql.Command.InsertedRow

/-!
# What a failed statement leaves behind

Every statement checks before it changes anything, except that an INSERT takes the values that it
generates from the counter of the table before the row is looked at.
-/

namespace TinySql
open Frame StorageEngine

structure Unchanged (e e' : Exec) : Prop where
  current : e'.session.currentDatabase = e.session.currentDatabase
  databases : ∀ d, e'.storage.hasDatabase d = e.storage.hasDatabase d
  tables : ∀ d n, e'.storage.getTable d n = e.storage.getTable d n

instance : Std.Refl Unchanged where
  refl _ := ⟨rfl, fun _ => rfl, fun _ _ => rfl⟩

instance : IsTrans Exec Unchanged where
  trans _ _ _ first second := by
    constructor
    · exact second.current.trans first.current
    · exact fun d => (second.databases d).trans (first.databases d)
    · exact fun d n => (second.tables d n).trans (first.tables d n)

theorem unchanged_responded {e : Exec} {s : StorageEngine} {bytes : Bytes}
    (databases : ∀ d, s.hasDatabase d = e.storage.hasDatabase d)
    (tables : ∀ d n, s.getTable d n = e.storage.getTable d n) :
    Unchanged e (Exec.responded bytes { e with storage := s }) :=
  ⟨rfl, databases, tables⟩

/-! ## Statements that change nothing when they fail -/

theorem nextSequenceId_unchanged : Respects Unchanged nextSequenceId :=
  fun _ => ⟨rfl, fun _ => rfl, fun _ _ => rfl⟩

theorem emit_unchanged (event : Event) : Respects Unchanged (emit event) :=
  fun _ => ⟨rfl, fun _ => rfl, fun _ _ => rfl⟩

theorem onStorage_unchanged {α : Type} {body : StatementM α}
    (reads : ∀ s, final (body.run s) = s) : Respects Unchanged (onStorage body) := by
  intro e
  have same := reads e.storage
  cases ran : body.run e.storage with
  | ok a s =>
      rw [ran] at same
      rw [onStorage_ok ran]
      obtain rfl : s = e.storage := same
      exact Std.Refl.refl (r := Unchanged) e
  | error p s =>
      rw [ran] at same
      rw [onStorage_error ran]
      obtain rfl : s = e.storage := same
      exact Std.Refl.refl (r := Unchanged) e

theorem final_selectRows (stmt : SelectStatement) (dbName : Bytes) (s : StorageEngine) :
    final ((selectRows stmt dbName).run s) = s := by
  rcases selectRows_ends stmt dbName s with ⟨p, ran⟩ | ⟨t, columns, kept, -, -, -, ran⟩
  · rw [ran]
    rfl
  · rw [ran]
    rfl

theorem select_unchanged (stmt : SelectStatement) : Respects Unchanged (executeSelect stmt) :=
  respects_executeSelect nextSequenceId_unchanged (fun event _ => emit_unchanged event)
    fun dbName => onStorage_unchanged (final_selectRows stmt dbName)

theorem answer_unchanged {body : StatementM OkPacket} (reads : ∀ s, final (body.run s) = s) :
    Respects Unchanged (answer body) :=
  respects_answer nextSequenceId_unchanged (fun event _ => emit_unchanged event)
    (onStorage_unchanged reads)

theorem final_executeShowTables (dbName : Bytes) (s : StorageEngine) :
    final ((executeShowTables dbName).run s) = s := by
  unfold executeShowTables
  by_cases named : dbName = []
  · rw [if_pos named]
    rfl
  · rw [if_neg named]
    simp only [EStateM.run_bind, EStateM.run_get]
    split <;> rfl

theorem executeCreateTable_error {stmt : CreateTableStatement} {dbName : Bytes}
    {s s' : StorageEngine} {p : ErrPacket}
    (failed : (executeCreateTable stmt dbName).run s = .error p s') : s' = s := by
  by_cases named : dbName = []
  · subst named
    exact (EStateM.Result.error.inj failed).2.symm
  · obtain ⟨db, s'', held, here, -⟩ := getOrCreateDatabase_cases s dbName
    rw [executeCreateTable_run named held] at failed
    split at failed
    · rename_i taken
      rw [getOrCreateDatabase_eq] at held
      cases there : s.getDatabase dbName with
      | some db' =>
          rw [there] at held
          obtain ⟨-, rfl⟩ := Prod.mk.inj held
          exact (EStateM.Result.error.inj failed).2.symm
      | none =>
          rw [there] at held
          obtain rfl := Option.some.inj (Prod.mk.inj held).1
          cases taken
    · cases failed

/-! ## INSERT -/

/-- An INSERT that is refused for a NULL after it has generated a value. The counter has 64 bits. -/
def SpendsCounter (dbName : Bytes) (s : StorageEngine) : Statement → Prop
  | .insert stmt => dbName ≠ [] ∧ ∃ t srcs, s.getTable dbName stmt.tableName = some t ∧
      sources stmt t.columns = some srcs ∧ Refused srcs t.columns ∧ ¬ 2 ^ 64 ∣ generations srcs
  | _ => False

section Insert
variable {dbName : Bytes} {s : StorageEngine} {stmt : InsertStatement} {t : Table}

theorem spendsCounter_iff {srcs : List Source} (named : dbName ≠ [])
    (found : s.getTable dbName stmt.tableName = some t)
    (known : sources stmt t.columns = some srcs) : SpendsCounter dbName s (.insert stmt) ↔
      Refused srcs t.columns ∧ ¬ 2 ^ 64 ∣ generations srcs := by
  constructor
  · rintro ⟨-, t', srcs', found', known', refused, spent⟩
    obtain rfl := Option.some.inj (found.symm.trans found')
    obtain rfl := Option.some.inj (known.symm.trans known')
    exact ⟨refused, spent⟩
  · exact fun ⟨refused, spent⟩ => ⟨named, t, srcs, found, known, refused, spent⟩

theorem not_spendsCounter (found : s.getTable dbName stmt.tableName = some t)
    (unknown : sources stmt t.columns = none) : ¬ SpendsCounter dbName s (.insert stmt) := by
  rintro ⟨-, t', srcs, found', known, -⟩
  obtain rfl := Option.some.inj (found.symm.trans found')
  rw [unknown] at known
  cases known

theorem setTable_same {db : Database} (here : s.getDatabase dbName = some db) {n : Bytes}
    (there : db.getTable n = some t) : (∀ d, (s.setTable dbName db n t).hasDatabase d = s.hasDatabase d) ∧
      ∀ d m, (s.setTable dbName db n t).getTable d m = s.getTable d m := by
  constructor
  · apply hasDatabase_setDatabase_of_has
    rw [hasDatabase, here]
    rfl
  · intro d m
    by_cases both : d = dbName ∧ m = n
    · rw [both.1, both.2, getTable_setTable, getTable_of_getDatabase here, there]
    · exact getTable_setTable_ne here both

end Insert

theorem insert_unchanged_iff (stmt : InsertStatement) (e : Exec) :
    (ErrSent (execute (.insert stmt)) e → Unchanged e (final ((execute (.insert stmt)).run e))) ↔
      ¬ SpendsCounter e.session.currentDatabase e.storage (.insert stmt) := by
  have same : ErrSent (execute (.insert stmt)) e ↔
      ErrSent (answer (executeInsert stmt e.session.currentDatabase)) e := by
    rw [ErrSent, execute_insert_run, ErrSent]
  rw [same, execute_insert_run]
  rcases executeInsert_cases stmt e.session.currentDatabase e.storage with
    ⟨db, t, named, here, there⟩ | ⟨absent, p, -, stops⟩
  · have found : e.storage.getTable e.session.currentDatabase stmt.tableName = some t := by
      rw [getTable_of_getDatabase here, there]
    have ran := executeInsert_spec named here there
    cases known : sources stmt t.columns with
    | none =>
        rw [known] at ran
        rw [answer_run_error ran]
        apply iff_of_true
        · exact fun _ => unchanged_responded (fun _ => rfl) fun _ _ => rfl
        · exact not_spendsCounter found known
    | some srcs =>
        rw [known] at ran
        rw [spendsCounter_iff named found known]
        by_cases refused : Refused srcs t.columns
        · simp only [if_pos refused] at ran
          rw [answer_run_error ran, ← counter_eq_self_iff t.nextAutoIncrement]
          simp only [errSent_answer_error ran, true_imp_iff, refused, true_and, not_not]
          constructor
          · intro unchanged
            have after := unchanged.tables e.session.currentDatabase stmt.tableName
            rw [found] at after
            have kept := (getTable_setTable _ _ _ _ _).symm.trans after
            exact congrArg Table.nextAutoIncrement (Option.some.inj kept)
          · intro stays
            have kept : t.counted srcs = t := by rw [Table.counted, stays]
            rw [kept]
            obtain ⟨databases, tables⟩ := setTable_same here there
            exact unchanged_responded databases tables
        · simp only [if_neg refused] at ran
          apply iff_of_true
          · exact fun sent => absurd sent (not_errSent_answer_ok ran)
          · exact fun spent => refused spent.1
  · rw [answer_run_error stops]
    apply iff_of_true
    · exact fun _ => unchanged_responded (fun _ => rfl) fun _ _ => rfl
    · rintro ⟨named, t, -, found, -⟩
      rcases absent with unnamed | none
      · exact named unnamed
      · rw [none] at found
        cases found

/-- A statement that is answered with ERR leaves databases, tables and the current database as they
were, unless it is an INSERT that spends values of the counter. -/
theorem failed_unchanged_iff (stmt : Statement) (e : Exec) :
    (ErrSent (execute stmt) e → Unchanged e (final ((execute stmt).run e))) ↔
      ¬ SpendsCounter e.session.currentDatabase e.storage stmt := by
  cases stmt with
  | insert stmt => exact insert_unchanged_iff stmt e
  | select stmt =>
      refine iff_of_true (fun _ => ?_) id
      rw [execute, run_get_bind]
      exact select_unchanged stmt e
  | showTables =>
      refine iff_of_true (fun _ => ?_) id
      rw [execute, run_get_bind]
      exact answer_unchanged (final_executeShowTables _) e
  | showDatabases =>
      refine iff_of_true (fun _ => ?_) id
      rw [execute, run_get_bind]
      exact answer_unchanged (fun _ => rfl) e
  | createTable stmt =>
      refine iff_of_true (fun sent => ?_) id
      rw [ErrSent, execute_createTable_run] at sent
      rw [execute_createTable_run]
      cases ran : (executeCreateTable stmt e.session.currentDatabase).run e.storage with
      | ok p s => exact absurd sent (not_errSent_answer_ok ran)
      | error p s =>
          obtain rfl := executeCreateTable_error ran
          rw [answer_run_error ran]
          exact unchanged_responded (fun _ => rfl) fun _ _ => rfl
  | dropTable tableName =>
      refine iff_of_true (fun sent => ?_) id
      rw [ErrSent, execute_dropTable_run] at sent
      rw [execute_dropTable_run]
      rcases executeDropTable_cases tableName e.session.currentDatabase e.storage with
        ⟨db, db', -, -, ran⟩ | ⟨p, ran⟩
      · exact absurd sent (not_errSent_answer_ok ran)
      · rw [answer_run_error ran]
        exact unchanged_responded (fun _ => rfl) fun _ _ => rfl
  | useDatabase databaseName =>
      refine iff_of_true (fun sent => ?_) id
      rw [errSent_of_responded (execute_useDatabase_run databaseName e) rfl, OkPacket.first] at sent
      exact absurd sent (by decide)

def strictTable : CreateTableStatement where
  tableName := ascii "t"
  columns := [{ name := ascii "id", type := ascii "INT", autoIncrement := true },
    { name := ascii "name", type := ascii "TEXT", notNull := true },
    { name := ascii "age", type := ascii "INT" }]

def strictExec : Exec where
  session := { connectionId := 1, state := .authenticated, currentDatabase := ascii "test" }
  storage := final ((executeCreateTable strictTable (ascii "test")).run .initial)
  events := []

def insertNameless : InsertStatement := ⟨ascii "t", [ascii "age"], [.numberLiteral (ascii "7")]⟩

/-- The INSERT is answered with ERR for the missing name, and the counter has moved. -/
theorem counter_spent : ¬ ∀ (stmt : Statement) (e : Exec),
    ErrSent (execute stmt) e → Unchanged e (final ((execute stmt).run e)) := by
  intro all
  apply (insert_unchanged_iff insertNameless strictExec).mp (all _ _)
  have shape : (strictExec.storage.getTable (ascii "test") (ascii "t")).bind (fun t =>
      (sources insertNameless t.columns).map fun srcs =>
        (decide (Refused srcs t.columns), generations srcs)) = some (true, 1) := by decide +kernel
  obtain ⟨t, found, shape⟩ := Option.bind_eq_some_iff.mp shape
  obtain ⟨srcs, known, shape⟩ := Option.map_eq_some_iff.mp shape
  obtain ⟨refused, one⟩ := Prod.mk.inj shape
  refine ⟨by decide, t, srcs, found, known, of_decide_eq_true refused, ?_⟩
  rw [one]
  decide

end TinySql
