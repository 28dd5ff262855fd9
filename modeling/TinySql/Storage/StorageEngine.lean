import Mathlib.Data.List.Sort
import TinySql.Storage.Table

/-!
# `Database` and `StorageEngine`

Tables and databases by name. A table that a statement holds by a shared pointer is written back
under its name when the statement changes it.
-/

namespace TinySql

structure Database where
  name : Bytes
  tables : AList (fun _ : Bytes => Table)

namespace Database

def create (name : Bytes) : Database := ⟨name, ∅⟩

def getTable (tableName : Bytes) (db : Database) : Option Table := db.tables.lookup tableName

def hasTable (tableName : Bytes) (db : Database) : Bool := (db.getTable tableName).isSome

/-- `createTable`; `none` when it returns false. -/
def createTable (table : Table) (db : Database) : Option Database :=
  if db.hasTable table.name then none
  else some { db with tables := db.tables.insert table.name table }

/-- `dropTable`; `none` when it returns false. -/
def dropTable (tableName : Bytes) (db : Database) : Option Database :=
  if db.hasTable tableName then some { db with tables := db.tables.erase tableName } else none

def getTableNames (db : Database) : List Bytes := db.tables.keys.insertionSort (· ≤ ·)

end Database

structure StorageEngine where
  databases : AList (fun _ : Bytes => Database)

namespace StorageEngine

def getDatabase (dbName : Bytes) (s : StorageEngine) : Option Database := s.databases.lookup dbName

def hasDatabase (dbName : Bytes) (s : StorageEngine) : Bool := (s.getDatabase dbName).isSome

def setDatabase (dbName : Bytes) (db : Database) (s : StorageEngine) : StorageEngine :=
  ⟨s.databases.insert dbName db⟩

def setTable (dbName : Bytes) (db : Database) (tableName : Bytes) (table : Table)
    (s : StorageEngine) : StorageEngine :=
  s.setDatabase dbName { db with tables := db.tables.insert tableName table }

/-- `createDatabase`; `none` when it returns false. -/
def createDatabase (dbName : Bytes) (s : StorageEngine) : Option StorageEngine :=
  if s.hasDatabase dbName then none else some (s.setDatabase dbName (Database.create dbName))

def getDatabaseNames (s : StorageEngine) : List Bytes := s.databases.keys.insertionSort (· ≤ ·)

def getOrCreateDatabase (dbName : Bytes) (s : StorageEngine) : Option Database × StorageEngine :=
  match s.getDatabase dbName with
  | some db => (some db, s)
  | none =>
      let s := (s.createDatabase dbName).getD s
      (s.getDatabase dbName, s)

def initial : StorageEngine :=
  (StorageEngine.mk ∅).setDatabase (ascii "mysql") (Database.create (ascii "mysql"))
    |>.setDatabase (ascii "test") (Database.create (ascii "test"))

@[simp] theorem getDatabase_setDatabase (s : StorageEngine) (n : Bytes) (db : Database) :
    (s.setDatabase n db).getDatabase n = some db := AList.lookup_insert _

@[simp] theorem getDatabase_setDatabase_ne (s : StorageEngine) {m n : Bytes} (db : Database)
    (other : m ≠ n) : (s.setDatabase n db).getDatabase m = s.getDatabase m :=
  AList.lookup_insert_ne other

theorem getOrCreateDatabase_eq (s : StorageEngine) (n : Bytes) : s.getOrCreateDatabase n =
    match s.getDatabase n with
    | some db => (some db, s)
    | none => (some (Database.create n), s.setDatabase n (Database.create n)) := by
  unfold getOrCreateDatabase
  cases found : s.getDatabase n with
  | some db => rfl
  | none => simp [createDatabase, hasDatabase, found]

end StorageEngine

end TinySql
