import TinySql.Command.Answers
import TinySql.Command.FaithfulInsert

/-!
# The two forms of an INSERT

The values stand in the order of the columns, or next to the names of their columns in any order.
Both forms end in the same row, since every cell has the same source.
-/

namespace TinySql
open StorageEngine

/-- `INSERT INTO tableName VALUES (values)`. -/
def positionalInsert (tableName : Bytes) (values : List Expression) : InsertStatement where
  tableName := tableName
  values := values

/-- `INSERT INTO tableName (names) VALUES (values)`, each name with its value. -/
def namedInsert (tableName : Bytes) (given : List (Bytes × Expression)) : InsertStatement where
  tableName := tableName
  columns := given.map Prod.fst
  values := given.map Prod.snd

section Forms
variable {columns : List ColumnDef} {values : List Expression} {given : List (Bytes × Expression)}

theorem zip_fst_snd (given : List (Bytes × Expression)) :
    (given.map Prod.fst).zip (given.map Prod.snd) = given := by
  induction given with
  | nil => rfl
  | cons pair rest ih => rw [List.map_cons, List.map_cons, List.zip_cons_cons, ih]

theorem once_of_perm (once : (columns.map ColumnDef.name).Nodup)
    (counts : values.length = columns.length)
    (permuted : given.Perm ((columns.map ColumnDef.name).zip values)) :
    (given.map Prod.fst).Nodup := by
  have names : ((columns.map ColumnDef.name).zip values).map Prod.fst =
      columns.map ColumnDef.name :=
    List.map_fst_zip (by rw [List.length_map, counts])
  rw [(permuted.map Prod.fst).nodup_iff, names]
  exact once

theorem sourceOf_permuted (once : (columns.map ColumnDef.name).Nodup)
    (counts : values.length = columns.length)
    (permuted : given.Perm ((columns.map ColumnDef.name).zip values)) :
    columns.map (sourceOf given) = values.map .given := by
  apply List.ext_getElem
  · rw [List.length_map, List.length_map, counts]
  · intro i insideColumns insideValues
    rw [List.length_map] at insideColumns insideValues
    have pair : (columns[i].name, values[i]) ∈ (columns.map ColumnDef.name).zip values :=
      List.mem_iff_getElem.mpr ⟨i, by simpa using ⟨insideColumns, insideValues⟩, by simp⟩
    have found := find?_of_nodup (once_of_perm once counts permuted) (permuted.mem_iff.mpr pair)
    rw [List.getElem_map, List.getElem_map, sourceOf, found]

theorem sources_namedInsert (tableName : Bytes) (once : (columns.map ColumnDef.name).Nodup)
    (counts : values.length = columns.length)
    (permuted : given.Perm ((columns.map ColumnDef.name).zip values)) :
    sources (namedInsert tableName given) columns =
      sources (positionalInsert tableName values) columns := by
  have positional : sources (positionalInsert tableName values) columns =
      some (values.map .given) := by
    simp [sources, positionalInsert, counts]
  have lengths : given.length = columns.length := by
    simpa [counts] using permuted.length_eq
  rw [positional, sources]
  by_cases none : given = []
  · subst none
    have noValues : values = [] := List.eq_nil_of_length_eq_zero (by rw [counts, ← lengths]; rfl)
    simp [namedInsert, noValues, ← lengths]
  · rw [if_pos (by simpa [namedInsert] using none), if_neg (by simp [namedInsert])]
    simp only [namedInsert, zip_fst_snd]
    rw [sourceOf_permuted once counts permuted]

end Forms

theorem executeInsert_congr {s : StorageEngine} {dbName : Bytes} {t : Table}
    {stmt stmt' : InsertStatement} (sameTable : stmt.tableName = stmt'.tableName)
    (found : s.getTable dbName stmt.tableName = some t)
    (sameSources : sources stmt t.columns = sources stmt' t.columns) :
    (executeInsert stmt dbName).run s = (executeInsert stmt' dbName).run s := by
  rcases selectedDatabase_cases dbName s with ⟨db, named, here⟩ | ⟨-, e, -, stops⟩
  · have there : db.getTable stmt.tableName = some t :=
      (getTable_of_getDatabase here stmt.tableName).symm.trans found
    rw [executeInsert_spec named here there, executeInsert_spec named here (sameTable ▸ there),
      sameSources, sameTable]
  · simp only [executeInsert, EStateM.run_bind, stops]

theorem answer_congr {body body' : StatementM OkPacket} {e : Exec}
    (same : body.run e.storage = body'.run e.storage) :
    (answer body).run e = (answer body').run e := by
  cases ran : body.run e.storage with
  | ok p s => rw [answer_run_ok ran, answer_run_ok (same.symm.trans ran)]
  | error p s => rw [answer_run_error ran, answer_run_error (same.symm.trans ran)]

/-- With pairwise distinct column names, an INSERT that lists all columns in any order ends like the
one that gives the values in the order of the columns: with the same answer and the same storage. -/
theorem insert_forms_agree {e : Exec} {dbName tableName : Bytes} {t : Table}
    {values : List Expression} {given : List (Bytes × Expression)}
    (found : e.storage.getTable dbName tableName = some t)
    (once : (t.columns.map ColumnDef.name).Nodup) (counts : values.length = t.columns.length)
    (permuted : given.Perm ((t.columns.map ColumnDef.name).zip values)) :
    (answer (executeInsert (namedInsert tableName given) dbName)).run e =
      (answer (executeInsert (positionalInsert tableName values) dbName)).run e := by
  apply answer_congr
  have sameSources := sources_namedInsert tableName once counts permuted
  have sameTable : (namedInsert tableName given).tableName =
      (positionalInsert tableName values).tableName := rfl
  exact executeInsert_congr sameTable found sameSources

def twoColumns : CreateTableStatement where
  tableName := ascii "t"
  columns := [{ name := ascii "a", type := ascii "INT" }, { name := ascii "b", type := ascii "TEXT" }]

def twoColumnExec : Exec where
  session := { connectionId := 1, state := .authenticated, currentDatabase := ascii "test" }
  storage := Frame.final ((executeCreateTable twoColumns (ascii "test")).run initial)
  events := []

/-- `(b, a) VALUES ('x', 5)` against `VALUES (5, 'x')`. -/
theorem insert_forms_agree_swapped :
    (answer (executeInsert (namedInsert (ascii "t")
      [(ascii "b", .stringLiteral (ascii "x")), (ascii "a", .numberLiteral (ascii "5"))])
        (ascii "test"))).run twoColumnExec =
    (answer (executeInsert (positionalInsert (ascii "t")
      [.numberLiteral (ascii "5"), .stringLiteral (ascii "x")]) (ascii "test"))).run twoColumnExec :=
  @insert_forms_agree twoColumnExec (ascii "test") (ascii "t") (newTable twoColumns) _ _ rfl
    (by decide) rfl (.swap _ _ _)

end TinySql
