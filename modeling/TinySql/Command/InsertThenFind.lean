import TinySql.Command.SelectAnswer
import TinySql.Command.TableIntegrity
import TinySql.Storage.WhereSafety

/-!
# A literal that is inserted and then looked for

An INSERT types a literal by its column, a WHERE clause by itself: a number becomes an `INT` or a
`BIGINT` by its size. `=` compares the alternatives first, so the two have to agree.
-/

namespace TinySql
open ExpressionEvaluator StorageEngine

section Condition
variable {row : Row} {columns : List ColumnDef} {c : Bytes} {i : Nat} {cell : Value}
  {expr : Expression}

end Condition

theorem filterRows_total {keep : Row → Except Exn Bool} {rows : List Row}
    (total : ∀ row ∈ rows, ∃ b, keep row = .ok b) : ∃ kept, filterRows keep rows = .ok kept := by
  induction rows with
  | nil => exact ⟨[], rfl⟩
  | cons row rest ih =>
      obtain ⟨b, here⟩ := total row List.mem_cons_self
      obtain ⟨kept, later⟩ := ih fun row member => total row (List.mem_cons_of_mem _ member)
      exact ⟨_, by rw [filterRows, here, later]; rfl⟩

/-! ## The row of the INSERT -/

def Gives (stmt : InsertStatement) (i : Nat) (c : Bytes) (expr : Expression) : Prop :=
  if stmt.columns = [] then stmt.values[i]? = some expr
  else (stmt.columns.zip stmt.values).find? (·.1 == c) = some (c, expr)

section Returns
variable {s : StorageEngine} {dbName tableName c : Bytes} {t : Table} {row : Row} {expr : Expression}

end Returns

def oneColumn (type : Bytes) : CreateTableStatement where
  tableName := ascii "t"
  columns := [{ name := ascii "c", type := type }]

def insertFive : InsertStatement where
  tableName := ascii "t"
  columns := []
  values := [.numberLiteral (ascii "5")]

def oneColumnStorage (type : Bytes) : StorageEngine :=
  Frame.final ((executeCreateTable (oneColumn type) (ascii "test")).run initial)

theorem oneColumnStorage_reached (type : Bytes) : Reached (oneColumnStorage type) :=
  ⟨[.createTable (oneColumn type) (ascii "test")], .cons rfl (.nil _)⟩

theorem oneColumnStorage_table (type : Bytes) :
    (oneColumnStorage type).getTable (ascii "test") (ascii "t") = some (newTable (oneColumn type)) :=
  rfl

def insertedStorage (type : Bytes) : StorageEngine :=
  Frame.final ((executeInsert insertFive (ascii "test")).run (oneColumnStorage type))

end TinySql
