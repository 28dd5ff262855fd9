import TinySql.Command.Executor
import TinySql.Lib.Directory

/-!
# The catalog

What the statements about databases and tables are for: the catalog holds the tables of each
database under their names, and every session has a current database. This is stated on partial
maps, without regard to how the storage engine keeps them.
-/

namespace TinySql

abbrev Catalog := Directory Bytes Table

inductive Reply where
  | ok (message : Bytes)
  | err

/-- A table as a CREATE TABLE makes it: it has no rows, and its AUTO_INCREMENT values begin at 1. -/
structure Table.Fresh (stmt : CreateTableStatement) (t : Table) : Prop where
  name : t.name = stmt.tableName
  columns : t.columns = stmt.columns.map columnDef
  rows : t.rows = []
  counter : t.nextAutoIncrement = 1

def tablesMessage (dbName : Bytes) (names : List Bytes) : Bytes :=
  ascii "Tables in " ++ dbName ++ ascii ": " ++
    if names = [] then ascii "(none)" else commaSeparated names

namespace Catalog
open Directory

/-- What a statement in this database may do to the catalog, and its reply. No database is selected
under the empty name. -/
inductive Does (dbName : Bytes) (c : Catalog) : Statement → Reply → Catalog → Prop where
  | createTable {stmt : CreateTableStatement} {t : Table} :
      dbName ≠ [] → stmt.tableName ∉ c.entries dbName → t.Fresh stmt →
      Does dbName c (.createTable stmt) (.ok []) (c.put dbName stmt.tableName t)
  | createTable_refused {stmt : CreateTableStatement} :
      dbName = [] ∨ stmt.tableName ∈ c.entries dbName → Does dbName c (.createTable stmt) .err c
  | dropTable {tableName : Bytes} :
      dbName ≠ [] → tableName ∈ c.entries dbName →
      Does dbName c (.dropTable tableName) (.ok []) (c.remove dbName tableName)
  | dropTable_refused {tableName : Bytes} :
      dbName = [] ∨ tableName ∉ c.entries dbName → Does dbName c (.dropTable tableName) .err c
  | insert {stmt : InsertStatement} {reply : Reply} {t t' : Table} :
      dbName ≠ [] → c.lookup dbName stmt.tableName = some t → t'.columns = t.columns →
      Does dbName c (.insert stmt) reply (c.put dbName stmt.tableName t')
  | insert_refused {stmt : InsertStatement} : Does dbName c (.insert stmt) .err c
  | showTables {names : List Bytes} :
      dbName ≠ [] → dbName ∈ c.parts → Lists names (c.entries dbName) →
      Does dbName c .showTables (.ok (tablesMessage dbName names)) c
  | showTables_none :
      dbName ≠ [] → dbName ∉ c.parts →
      Does dbName c .showTables (.ok (ascii "No tables in database")) c
  | showTables_refused : dbName = [] → Does dbName c .showTables .err c
  | showDatabases {names : List Bytes} :
      Lists names c.parts →
      Does dbName c .showDatabases (.ok (ascii "Databases: " ++ commaSeparated names)) c

variable {dbName d : Bytes} {c c' : Catalog} {reply : Reply}

theorem Does.createTable_ok_iff {stmt : CreateTableStatement}
    (does : Does dbName c (.createTable stmt) reply c') :
    reply ≠ .err ↔ dbName ≠ [] ∧ stmt.tableName ∉ c.entries dbName := by
  cases does with
  | createTable named free => simp [named, free]
  | createTable_refused taken =>
      rw [← not_or]
      simp [taken]

theorem Does.dropTable_ok_iff {tableName : Bytes}
    (does : Does dbName c (.dropTable tableName) reply c') :
    reply ≠ .err ↔ dbName ≠ [] ∧ tableName ∈ c.entries dbName := by
  cases does with
  | dropTable named there => simp [named, there]
  | dropTable_refused absent =>
      rw [← not_not (a := tableName ∈ c.entries dbName), ← not_or]
      simp [absent]

theorem Does.created {stmt : CreateTableStatement}
    (does : Does dbName c (.createTable stmt) reply c') (ok : reply ≠ .err) :
    (∃ t, c'.lookup dbName stmt.tableName = some t ∧ t.Fresh stmt) ∧
      ∀ n, n ≠ stmt.tableName → c'.lookup dbName n = c.lookup dbName n := by
  cases does with
  | createTable named free fresh =>
      exact ⟨⟨_, lookup_put, fresh⟩, fun n other => lookup_put_ne other⟩
  | createTable_refused => exact absurd rfl ok

theorem Does.dropped {tableName : Bytes} (does : Does dbName c (.dropTable tableName) reply c')
    (ok : reply ≠ .err) : c'.lookup dbName tableName = none ∧
      ∀ n, n ≠ tableName → c'.lookup dbName n = c.lookup dbName n := by
  cases does with
  | dropTable => exact ⟨lookup_remove, fun n other => lookup_remove_ne other⟩
  | dropTable_refused => exact absurd rfl ok

theorem Does.other {stmt : Statement} (does : Does dbName c stmt reply c') (other : d ≠ dbName) :
    c' d = c d := by
  cases does with
  | createTable | insert => exact put_other other
  | dropTable => exact remove_other other
  | _ => rfl

end Catalog

structure World where
  catalog : Catalog
  current : Nat → Bytes

namespace World

abbrev Label := (Nat × Statement) × Reply

inductive Step : World → Label → World → Prop where
  | statement {w : World} {i : Nat} {stmt : Statement} {reply : Reply} {c : Catalog} :
      w.catalog.Does (w.current i) stmt reply c →
      Step w ((i, stmt), reply) { w with catalog := c }
  | useDatabase {w : World} {i : Nat} {name : Bytes} :
      Step w ((i, .useDatabase name), .ok (ascii "Database changed to: " ++ name))
        { w with current := Function.update w.current i name }

end World

end TinySql
