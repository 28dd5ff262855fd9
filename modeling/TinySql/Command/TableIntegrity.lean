import TinySql.Command.StatementLaws
import TinySql.Lib.Frame
import TinySql.Lib.Run

/-!
# What holds of every table that statements can make

Tables come into being by CREATE TABLE, grow by INSERT and go by DROP TABLE. NOT NULL is kept in
all of them; PRIMARY KEY is a flag that no statement looks at.
-/

namespace TinySql
open Run StorageEngine

inductive Change where
  | createTable (stmt : CreateTableStatement) (dbName : Bytes)
  | insert (stmt : InsertStatement) (dbName : Bytes)
  | dropTable (tableName dbName : Bytes)

namespace Change

def body : Change → StatementM OkPacket
  | .createTable stmt dbName => executeCreateTable stmt dbName
  | .insert stmt dbName => executeInsert stmt dbName
  | .dropTable tableName dbName => executeDropTable tableName dbName

/-- The change takes one storage to the other, whether it is answered with OK or with ERR. -/
def Step (s : StorageEngine) (c : Change) (s' : StorageEngine) : Prop :=
  Frame.final (c.body.run s) = s'

end Change

/-- What changes make of the engine that the server starts with. -/
def Reached (s : StorageEngine) : Prop := ∃ run, Runs Change.Step initial run s

/-! ## The rule of invariants of tables -/

section Invariant
variable {P : Table → Prop} {s s' : StorageEngine}
  (created : ∀ stmt, P (newTable stmt))
  (counted : ∀ t t', SameRows t t' → P t → P t')
  (inserted : ∀ t t' row, t.insertRow row = some t' → P t → P t')

include created in
theorem every_createTable (stmt : CreateTableStatement) (dbName : Bytes) (every : s.Every P) :
    (Frame.final ((executeCreateTable stmt dbName).run s)).Every P := by
  by_cases named : dbName = []
  · subst named
    exact every
  · obtain ⟨db, s', held, here, keeps⟩ := getOrCreateDatabase_cases s dbName
    rw [executeCreateTable_run named held]
    split
    · exact keeps P every
    · exact (keeps P every).setTable here (created stmt)

include counted inserted in
theorem every_insert (stmt : InsertStatement) (dbName : Bytes) (every : s.Every P) :
    (Frame.final ((executeInsert stmt dbName).run s)).Every P := by
  rcases executeInsert_cases stmt dbName s with ⟨db, t, named, here, there⟩ | ⟨-, e, -, stops⟩
  · have holds : P t := every.inside here _ t there
    rw [executeInsert_run named here there]
    rcases buildRow_cases stmt t with mismatch | ⟨row, t', built, -, same⟩
    · rw [mismatch]
      exact every
    · rw [built]
      have holds' : P t' := counted t t' same holds
      cases stored : t'.insertRow row with
      | none =>
          simp only [stored]
          exact every.setTable here holds'
      | some t'' =>
          simp only [stored]
          exact every.setTable here (inserted t' t'' row stored holds')
  · rw [stops]
    exact every

theorem every_dropTable (tableName dbName : Bytes) (every : s.Every P) :
    (Frame.final ((executeDropTable tableName dbName).run s)).Every P := by
  rcases executeDropTable_cases tableName dbName s with
    ⟨db, db', here, dropped, run⟩ | ⟨e, stops⟩
  · rw [run]
    exact every.setDatabase (dropTable_inside (every.inside here) dropped)
  · rw [stops]
    exact every

include created counted inserted in
theorem Reached.every (reached : Reached s) : s.Every P := by
  obtain ⟨run, runs⟩ := reached
  refine runs.preserves ?_ every_initial
  rintro s c s' every rfl
  cases c with
  | createTable stmt dbName => exact every_createTable created stmt dbName every
  | insert stmt dbName => exact every_insert counted inserted stmt dbName every
  | dropTable tableName dbName => exact every_dropTable tableName dbName every

end Invariant

/-! ## NOT NULL -/

/-- A row has a cell for each column, and no NULL in a NOT NULL column. -/
def Admissible (columns : List ColumnDef) (row : Row) : Prop :=
  row.length = columns.length ∧
    ∀ pair ∈ row.zip columns, pair.2.notNull = true → pair.1 ≠ .null

namespace Table

def AllAdmissible (t : Table) : Prop := ∀ row ∈ t.rows, Admissible t.columns row

theorem insertRow_isSome {t : Table} {row : Row} :
    (t.insertRow row).isSome ↔ Admissible t.columns row := by
  rw [Option.isSome_iff_exists]
  constructor
  · rintro ⟨t', stored⟩
    obtain ⟨width, filled, -⟩ := insertRow_eq_some.mp stored
    exact ⟨width, filled⟩
  · rintro ⟨width, filled⟩
    exact ⟨_, insertRow_eq_some.mpr ⟨width, filled, rfl⟩⟩

theorem insertRow_rows {t t' : Table} {row : Row} (stored : t.insertRow row = some t') :
    t'.columns = t.columns ∧ t'.rows = t.rows ++ [row] := by
  obtain ⟨-, -, rfl⟩ := insertRow_eq_some.mp stored
  exact ⟨rfl, rfl⟩

end Table

theorem Reached.allAdmissible {s : StorageEngine} (reached : Reached s) :
    s.Every Table.AllAdmissible := by
  refine reached.every ?_ ?_ ?_
  · intro stmt row member
    rw [newTable_rows] at member
    cases member
  · intro t t' same all row member
    rw [same.columns]
    exact all row (same.rows ▸ member)
  · intro t t' row stored all row' member
    have admissible : Admissible t.columns row :=
      Table.insertRow_isSome.mp (Option.isSome_iff_exists.mpr ⟨t', stored⟩)
    obtain ⟨columns, rows⟩ := Table.insertRow_rows stored
    rw [columns]
    rcases List.mem_append.mp (rows ▸ member) with old | new
    · exact all row' old
    · rwa [List.mem_singleton.mp new]

/-! ## Refused rows -/

/-- The INSERT finds its table and builds a row that the table does not admit. -/
def BuildsInadmissible (stmt : InsertStatement) (dbName : Bytes) (s : StorageEngine) : Prop :=
  dbName ≠ [] ∧ ∃ t row t', s.getTable dbName stmt.tableName = some t ∧
    buildRow stmt t = .ok (row, t') ∧ ¬ Admissible t.columns row

def AnsweredDuplicate (stmt : InsertStatement) (dbName : Bytes) (s : StorageEngine) : Prop :=
  ∃ e s', (executeInsert stmt dbName).run s = .error e s' ∧ e.errorCode = 1062

theorem Missing.not_duplicate {e : ErrPacket} (missing : Missing e) : e.errorCode ≠ 1062 := by
  rcases missing.errorCode with code | code | code <;>
  · rw [code]
    decide

theorem answeredDuplicate_iff (stmt : InsertStatement) (dbName : Bytes) (s : StorageEngine) :
    AnsweredDuplicate stmt dbName s ↔ BuildsInadmissible stmt dbName s := by
  rcases executeInsert_cases stmt dbName s with
    ⟨db, t, named, here, there⟩ | ⟨absent, e, missing, stops⟩
  · have found : s.getTable dbName stmt.tableName = some t := by
      rw [getTable_of_getDatabase here, there]
    have run := executeInsert_run named here there
    rcases buildRow_cases stmt t with mismatch | ⟨row, t', built, -, same⟩
    · simp only [mismatch] at run
      have other : columnCountMismatch.errorCode ≠ 1062 := by decide
      simp [AnsweredDuplicate, BuildsInadmissible, run, found, mismatch, other]
    · simp only [built] at run
      have admits : (t'.insertRow row).isSome ↔ Admissible t.columns row := by
        rw [Table.insertRow_isSome, same.columns]
      have code : failedToInsert.errorCode = 1062 := rfl
      cases stored : t'.insertRow row with
      | none =>
          have refused : ¬ Admissible t.columns row := by simp [← admits, stored]
          simp [AnsweredDuplicate, BuildsInadmissible, run, stored, found, built, named, refused,
            code]
      | some t'' =>
          have admitted : Admissible t.columns row := by simp [← admits, stored]
          simp [AnsweredDuplicate, BuildsInadmissible, run, stored, found, built, admitted]
  · have other := missing.not_duplicate
    rcases absent with rfl | absent
    · simp [AnsweredDuplicate, BuildsInadmissible, stops, other]
    · simp [AnsweredDuplicate, BuildsInadmissible, stops, absent, other]

/-! ## Keys -/

def keyOf (columns : List ColumnDef) (row : Row) : List Value :=
  ((row.zip columns).filter (·.2.primaryKey)).map Prod.fst

/-- The PRIMARY KEY columns of a table, if it has any, identify its rows and hold no NULL. -/
def Table.KeysHold (t : Table) : Prop :=
  (∃ c ∈ t.columns, c.primaryKey = true) →
    (∀ row ∈ t.rows, Value.null ∉ keyOf t.columns row) ∧
      t.rows.Pairwise fun row other => keyOf t.columns row ≠ keyOf t.columns other

def keyedTable : CreateTableStatement where
  tableName := ascii "t"
  columns := [{ name := ascii "id", type := ascii "INT", primaryKey := true }]

def insertOne : InsertStatement where
  tableName := ascii "t"
  columns := []
  values := [.numberLiteral (ascii "1")]

def duplicateRun : List Change :=
  [.createTable keyedTable (ascii "test"), .insert insertOne (ascii "test"),
    .insert insertOne (ascii "test")]

def duplicateStorage : StorageEngine :=
  duplicateRun.foldl (fun s c => Frame.final (c.body.run s)) initial

theorem duplicateStorage_reached : Reached duplicateStorage :=
  ⟨duplicateRun, .cons rfl (.cons rfl (.cons rfl (.nil _)))⟩

theorem duplicateStorage_table : ∃ t,
    duplicateStorage.getTable (ascii "test") (ascii "t") = some t ∧
      t.columns = [{ name := ascii "id", type := .int, primaryKey := true }] ∧
      t.rows = [[.int 1], [.int 1]] := by
  have shape : (duplicateStorage.getTable (ascii "test") (ascii "t")).map
      (fun t => (t.columns, t.rows)) =
        some ([{ name := ascii "id", type := .int, primaryKey := true }],
          [[.int 1], [.int 1]]) := by decide +kernel
  obtain ⟨t, found, shape⟩ := Option.map_eq_some_iff.mp shape
  exact ⟨t, found, (Prod.mk.inj shape).1, (Prod.mk.inj shape).2⟩

/-- In every table that statements can make, every row has a cell for each column and no NULL in a
NOT NULL column, and ERR 1062 answers exactly the INSERTs whose row would break this. -/
theorem tables_admissible (s : StorageEngine) (reached : Reached s) :
    s.Every Table.AllAdmissible ∧ ∀ stmt dbName,
      (AnsweredDuplicate stmt dbName s ↔ BuildsInadmissible stmt dbName s) :=
  ⟨reached.allAdmissible, fun stmt dbName => answeredDuplicate_iff stmt dbName s⟩

theorem tables_admissible_duplicateStorage :
    duplicateStorage.Every Table.AllAdmissible ∧ ∀ stmt dbName,
      (AnsweredDuplicate stmt dbName duplicateStorage ↔
        BuildsInadmissible stmt dbName duplicateStorage) :=
  tables_admissible duplicateStorage duplicateStorage_reached

/-- Keys are not enforced: an INSERT of a key that is there is answered with OK and stored. -/
theorem keys_not_enforced : ¬ ∀ s, Reached s → s.Every Table.KeysHold := by
  intro all
  obtain ⟨t, found, columns, rows⟩ := duplicateStorage_table
  have holds := all duplicateStorage duplicateStorage_reached _ _ t found
  rw [Table.KeysHold, columns, rows] at holds
  exact absurd (holds (by decide)).2 (by decide)

end TinySql
