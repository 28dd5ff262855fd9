import Mathlib.Data.List.AList
import TinySql.Storage.Value

/-!
# `Row` and `Table`

A table keeps its columns, the index of each column name, its rows and the counter of its
AUTO_INCREMENT values. That the index map points at columns of the name it maps is part of the
type: `addColumn` is the only way to add to either.
-/

namespace TinySql

abbrev Row := List Value

structure Table where
  name : Bytes
  columns : List ColumnDef
  columnIndexMap : AList (fun _ : Bytes => Nat)
  rows : List Row
  nextAutoIncrement : Int64
  indexed : ∀ n i, columnIndexMap.lookup n = some i → ∃ c, columns[i]? = some c ∧ c.name = n
  covered : ∀ c ∈ columns, c.name ∈ columnIndexMap

namespace Table

def create (name : Bytes) : Table where
  name := name
  columns := []
  columnIndexMap := ∅
  rows := []
  nextAutoIncrement := 1
  indexed n i found := by simp at found
  covered c member := by simp at member

def addColumn (column : ColumnDef) (t : Table) : Table where
  name := t.name
  columns := t.columns ++ [column]
  columnIndexMap := t.columnIndexMap.insert column.name t.columns.length
  rows := t.rows
  nextAutoIncrement := t.nextAutoIncrement
  indexed n i found := by
    by_cases same : n = column.name
    · subst same
      obtain rfl : t.columns.length = i := by simpa using found
      exact ⟨column, by simp⟩
    · rw [AList.lookup_insert_ne same] at found
      obtain ⟨c, here, named⟩ := t.indexed n i found
      have inside : i < t.columns.length := (List.getElem?_eq_some_iff.mp here).1
      exact ⟨c, by rw [List.getElem?_append_left inside, here], named⟩
  covered c member := by
    rw [AList.mem_insert]
    rcases List.mem_append.mp member with old | new
    · exact .inr (t.covered c old)
    · exact .inl (by rw [List.mem_singleton.mp new])

/-- `getColumnIndex`; `none` stands for -1. -/
def getColumnIndex (columnName : Bytes) (t : Table) : Option Nat :=
  t.columnIndexMap.lookup columnName

/-- `insertRow`; `none` when it returns false. -/
def insertRow (row : Row) (t : Table) : Option Table :=
  if row.length ≠ t.columns.length then none
  else if (row.zip t.columns).any fun (value, column) => column.notNull && value.isNull then none
  else some { t with rows := t.rows ++ [row] }

/-- The next AUTO_INCREMENT value, and the table that has handed it out. -/
def getNextAutoIncrementValue (t : Table) : Int64 × Table :=
  (t.nextAutoIncrement, { t with nextAutoIncrement := t.nextAutoIncrement + 1 })

theorem getColumnIndex_some {t : Table} {n : Bytes} {i : Nat}
    (found : t.getColumnIndex n = some i) : ∃ c, t.columns[i]? = some c ∧ c.name = n :=
  t.indexed n i found

theorem getColumnIndex_isSome {t : Table} {n : Bytes} :
    (t.getColumnIndex n).isSome ↔ ∃ c ∈ t.columns, c.name = n := by
  constructor
  · intro found
    obtain ⟨i, found⟩ := Option.isSome_iff_exists.mp found
    obtain ⟨c, here, named⟩ := t.indexed n i found
    exact ⟨c, List.mem_of_getElem? here, named⟩
  · rintro ⟨c, member, rfl⟩
    exact AList.lookup_isSome.mpr (t.covered c member)

theorem insertRow_eq_some {t t' : Table} {row : Row} : t.insertRow row = some t' ↔
    row.length = t.columns.length ∧
      (∀ pair ∈ row.zip t.columns, pair.2.notNull = true → pair.1 ≠ .null) ∧
      { t with rows := t.rows ++ [row] } = t' := by
  have isNull (v : Value) : v.isNull = true ↔ v = .null := by cases v <;> simp [Value.isNull]
  unfold insertRow
  split_ifs with width nulls
  · simp [width]
  · simp only [List.any_eq_true, Bool.and_eq_true, isNull] at nulls
    obtain ⟨pair, member, notNull, null⟩ := nulls
    constructor
    · intro run
      cases run
    · rintro ⟨-, filled, -⟩
      exact absurd null (filled pair member notNull)
  · simp only [List.any_eq_true, Bool.and_eq_true, isNull, not_exists, not_and] at nulls
    simp only [Option.some.injEq]
    constructor
    · exact fun run => ⟨not_ne_iff.mp width, nulls, run⟩
    · exact fun ⟨_, _, run⟩ => run

end Table

end TinySql
