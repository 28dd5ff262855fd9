import TinySql.Sql.Ast
import TinySql.Sql.Token

/-!
# The statements of the parser

A grammar for the statements that `Parser` builds. Each relation leads from the tokens in front of a
construct to those behind it.
-/

namespace TinySql.Grammar

/-- The constraints behind a column's type, and the column before and after them. PRIMARY without
KEY and NOT without NULL are words without a meaning. -/
inductive Constraints : ColumnDefinition → List Token → ColumnDefinition → List Token → Prop where
  | none (col : ColumnDefinition) (ts : List Token) : Constraints col ts col ts
  | primaryKey {col col' : ColumnDefinition} {t key : Token} {ts rest : List Token} :
      t.type = .PRIMARY → key.type = .KEY →
      Constraints { col with primaryKey := true } ts col' rest →
      Constraints col (t :: key :: ts) col' rest
  | primary {col col' : ColumnDefinition} {t : Token} {ts rest : List Token} :
      t.type = .PRIMARY → (∀ key ∈ ts.head?, key.type ≠ .KEY) →
      Constraints col ts col' rest → Constraints col (t :: ts) col' rest
  | notNull {col col' : ColumnDefinition} {t null : Token} {ts rest : List Token} :
      t.type = .NOT → null.type = .NULL_TOKEN →
      Constraints { col with notNull := true } ts col' rest →
      Constraints col (t :: null :: ts) col' rest
  | not {col col' : ColumnDefinition} {t : Token} {ts rest : List Token} :
      t.type = .NOT → (∀ null ∈ ts.head?, null.type ≠ .NULL_TOKEN) →
      Constraints col ts col' rest → Constraints col (t :: ts) col' rest
  | autoIncrement {col col' : ColumnDefinition} {t : Token} {ts rest : List Token} :
      t.type = .AUTO_INCREMENT → Constraints { col with autoIncrement := true } ts col' rest →
      Constraints col (t :: ts) col' rest
  | default {col col' : ColumnDefinition} {t value : Token} {ts rest : List Token} :
      t.type = .DEFAULT → Constraints { col with defaultValue := value.literal } ts col' rest →
      Constraints col (t :: value :: ts) col' rest

theorem Constraints.of_nil {col col' : ColumnDefinition} {rest : List Token}
    (constraints : Constraints col [] col' rest) : rest = [] := by
  cases constraints
  rfl

theorem Constraints.length_le {col col' : ColumnDefinition} {ts rest : List Token}
    (constraints : Constraints col ts col' rest) : rest.length ≤ ts.length := by
  induction constraints with
  | none => exact Nat.le_refl _
  | primaryKey _ _ _ ih | notNull _ _ _ ih | default _ _ ih =>
      simp only [List.length_cons]
      omega
  | primary _ _ _ ih | not _ _ _ ih | autoIncrement _ _ ih => exact ih.trans (Nat.le_succ _)

/-- Column definitions. Any token is taken for a type, and the last comma needs no column. -/
inductive Columns : List Token → List ColumnDefinition → List Token → Prop where
  | none (ts : List Token) : Columns ts [] ts
  | last {name type : Token} {col : ColumnDefinition} {ts rest : List Token} :
      name.type = .IDENTIFIER →
      Constraints { name := name.literal, type := type.literal } ts col rest →
      Columns (name :: type :: ts) [col] rest
  | more {name type comma : Token} {col : ColumnDefinition} {cols : List ColumnDefinition}
      {ts between rest : List Token} :
      name.type = .IDENTIFIER →
      Constraints { name := name.literal, type := type.literal } ts col (comma :: between) →
      comma.type = .COMMA → Columns between cols rest →
      Columns (name :: type :: ts) (col :: cols) rest

inductive FromClause : List Token → Bytes → List Token → Prop where
  | none (ts : List Token) : FromClause ts [] ts
  | table {t name : Token} {ts : List Token} :
      t.type = .FROM → name.type = .IDENTIFIER → FromClause (t :: name :: ts) name.literal ts

inductive LimitClause : List Token → Int32 → List Token → Prop where
  | none (ts : List Token) : LimitClause ts (-1) ts
  | number {t number : Token} {limit : Int32} {ts : List Token} :
      t.type = .LIMIT → number.type = .NUMBER → stoi number.literal = .ok limit →
      LimitClause (t :: number :: ts) limit ts

/-- A statement. Every SELECT is one of all columns, without a condition, and there is no INSERT,
since the parser builds no expression. -/
inductive Sentence : List Token → Statement → List Token → Prop where
  | select {t star : Token} {tableName : Bytes} {limit : Int32} {ts between rest : List Token} :
      t.type = .SELECT → star.type = .ASTERISK → FromClause ts tableName between →
      LimitClause between limit rest →
      Sentence (t :: star :: ts)
        (.select { columns := [.identifier (ascii "*")], tableName := tableName, limit := limit })
        rest
  | createTable {t table name opening closing : Token} {columns : List ColumnDefinition}
      {ts rest : List Token} :
      t.type = .CREATE → table.type = .TABLE → name.type = .IDENTIFIER → opening.type = .LPAREN →
      Columns ts columns (closing :: rest) → closing.type = .RPAREN →
      Sentence (t :: table :: name :: opening :: ts) (.createTable ⟨name.literal, columns⟩) rest
  | dropTable {t table name : Token} {ts : List Token} :
      t.type = .DROP → table.type = .TABLE → name.type = .IDENTIFIER →
      Sentence (t :: table :: name :: ts) (.dropTable name.literal) ts
  | showTables {t tables : Token} {ts : List Token} :
      t.type = .SHOW → tables.type = .TABLES → Sentence (t :: tables :: ts) .showTables ts
  | showDatabases {t databases : Token} {ts : List Token} :
      t.type = .SHOW → databases.type = .DATABASES →
      Sentence (t :: databases :: ts) .showDatabases ts
  | useDatabase {t name : Token} {ts : List Token} :
      t.type = .USE → name.type = .IDENTIFIER →
      Sentence (t :: name :: ts) (.useDatabase name.literal) ts

/-- The tokens are one statement and nothing else but semicolons behind it. -/
def OneStatement (ts : List Token) : Prop :=
  ∃ stmt semicolons, Sentence ts stmt semicolons ∧ ∀ t ∈ semicolons, t.type = .SEMICOLON

end TinySql.Grammar
