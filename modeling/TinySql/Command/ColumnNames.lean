import TinySql.Command.CatalogRefinement
import TinySql.Sql.ParserSoundness

/-!
# Which column a name means

The field list looks a name up in the index map of the table, WHERE takes the first column of the
name, and an INSERT by names fills every column of the name.
-/

namespace TinySql
open StorageEngine

namespace Table

/-- Whatever values an INSERT gives for these names, the one that stands for the name comes into this
cell of its row. -/
def Fills (names : List Bytes) (name : Bytes) (t : Table) (j : Nat) : Prop :=
  ∃ col, t.columns[j]? = some col ∧
    ∀ tableName values row t', buildRow ⟨tableName, names, values⟩ t = .ok (row, t') →
      ∃ expr, values[names.idxOf name]? = some expr ∧
        row[j]? = some (expressionToValue expr col.type)

def Reads (name : Bytes) (t : Table) (i : Nat) : Prop :=
  ∀ (row : Row) (v : Value), row.length = t.columns.length → row[i]? = some v →
    ExpressionEvaluator.evaluateIdentifier row t.columns name = .ok v

/-- The name means one position everywhere: in the field list, in WHERE, and in any INSERT that gives
a value for it. -/
def Agrees (name : Bytes) (t : Table) : Prop :=
  ∃ i, t.getColumnIndex name = some i ∧ t.Reads name i ∧
    ∀ names, name ∈ names → ∀ j, t.Fills names name j ↔ j = i

variable {t : Table} {name : Bytes}

/-- The scan over the list of names finds the value of their first occurrence. -/
theorem find?_zip {names : List Bytes} {values : List Expression}
    (length : names.length = values.length) (gives : name ∈ names) :
    ∃ expr, values[names.idxOf name]? = some expr ∧
      (names.zip values).find? (·.1 == name) = some (name, expr) := by
  induction names generalizing values with
  | nil => cases gives
  | cons first rest ih =>
      cases values with
      | nil => cases length
      | cons expr exprs =>
          by_cases same : first = name
          · subst same
            exact ⟨expr, by simp, by simp⟩
          · have behind := (List.mem_cons.mp gives).resolve_left (Ne.symm same)
            obtain ⟨found, at_, finds⟩ := ih (Nat.succ.inj length) behind
            refine ⟨found, ?_, ?_⟩
            · rw [List.idxOf_cons_ne rest same, List.getElem?_cons_succ, at_]
            · rw [List.zip_cons_cons, List.find?_cons_of_neg (by simpa using same), finds]

theorem buildRow_names {names : List Bytes} (gives : name ∈ names) (tableName : Bytes)
    (values : List Expression) (t : Table) : buildRow ⟨tableName, names, values⟩ t =
      if names.length ≠ values.length then .error columnCountMismatch
      else .ok (namedRow (names.zip values) t.columns t) := by
  rw [buildRow, if_pos (List.ne_nil_of_mem gives)]

theorem fills_of_named {names : List Bytes} (gives : name ∈ names) {j : Nat} {col : ColumnDef}
    (here : t.columns[j]? = some col) (named : col.name = name) : t.Fills names name j := by
  refine ⟨col, here, fun tableName values row t' built => ?_⟩
  rw [buildRow_names gives] at built
  split_ifs at built with length
  obtain ⟨expr, at_, finds⟩ := find?_zip (not_ne_iff.mp length) gives
  obtain ⟨t'', cell⟩ := @namedRow_getElem? (names.zip values) _ _ _ here t
  have same : (namedRow (names.zip values) t.columns t).1 = row :=
    congrArg Prod.fst (Except.ok.inj built)
  refine ⟨expr, at_, ?_⟩
  rw [← same, cell, namedCell, named, finds]

/-- A text for the name, and another one for the other names: a cell that has the text although its
column has another name has it by default. -/
theorem namedCell_other {names : List Bytes} {col : ColumnDef} {text : Bytes}
    (other : col.name ≠ name) (some : text ≠ []) (default : col.defaultValue ≠ .string text)
    (t : Table) : (namedCell
      (names.zip (names.map fun n => .stringLiteral (if n = name then text else []))) col t).1 ≠
        .string text := by
  intro same
  rw [← List.map_prod_left_eq_zip] at same
  unfold namedCell at same
  split at same
  · rename_i n expr finds
    obtain rfl : n = col.name := by simpa using List.find?_some finds
    obtain ⟨_, -, pair⟩ := List.mem_map.mp (List.mem_of_find?_eq_some finds)
    obtain ⟨rfl, rfl⟩ := Prod.mk.inj pair
    rw [if_neg other] at same
    exact some (Value.string.inj same).symm
  · split at same
    · cases same
    · exact default same

theorem named_of_fills {names : List Bytes} (gives : name ∈ names) {j : Nat}
    (fills : t.Fills names name j) : (t.columns.map (·.name))[j]? = some name := by
  obtain ⟨col, here, filled⟩ := fills
  rw [List.getElem?_map, here, Option.map_some]
  by_contra differs
  have other : col.name ≠ name := fun same => differs (congrArg some same)
  obtain ⟨text, more, default⟩ : ∃ text : Bytes, text ≠ [] ∧ col.defaultValue ≠ .string text := by
    by_cases taken : col.defaultValue = .string [0]
    · exact ⟨[1], by simp, by rw [taken]; simp⟩
    · exact ⟨[0], by simp, taken⟩
  have built := buildRow_names gives []
    (names.map fun n => .stringLiteral (if n = name then text else [])) t
  rw [if_neg (by simp)] at built
  obtain ⟨expr, at_, cell⟩ := filled _ _ _ _ built
  rw [List.getElem?_map, List.getElem?_idxOf gives, Option.map_some, if_pos rfl] at at_
  obtain rfl := Option.some.inj at_
  obtain ⟨t', made⟩ := @namedRow_getElem?
    (names.zip (names.map fun n => .stringLiteral (if n = name then text else []))) _ _ _ here t
  exact namedCell_other other more default t' (Option.some.inj (made.symm.trans cell))

theorem fills_iff {names : List Bytes} (gives : name ∈ names) (j : Nat) :
    t.Fills names name j ↔ (t.columns.map (·.name))[j]? = some name := by
  constructor
  · exact named_of_fills gives
  · rw [List.getElem?_map, Option.map_eq_some_iff]
    rintro ⟨col, here, named⟩
    exact fills_of_named gives here named

theorem agrees_iff (name : Bytes) (t : Table) :
    t.Agrees name ↔ ∃! i : Nat, (t.columns.map (·.name))[i]? = some name := by
  constructor
  · rintro ⟨i, -, -, fills⟩
    have only := fills [name] (by simp)
    refine ⟨i, ?_, ?_⟩
    · exact (fills_iff (by simp) i).mp ((only i).mpr rfl)
    · exact fun j here => (only j).mp ((fills_iff (by simp) j).mpr here)
  · rintro ⟨i, here, only⟩
    obtain ⟨col, there, named⟩ : ∃ col, t.columns[i]? = some col ∧ col.name = name := by
      rwa [List.getElem?_map, Option.map_eq_some_iff] at here
    have unique (j : Nat) (c : ColumnDef) (at_j : t.columns[j]? = some c) (same : c.name = name) :
        j = i := only j (by simp [at_j, same])
    refine ⟨i, ?_, ?_, ?_⟩
    · have known := Table.getColumnIndex_isSome.mpr ⟨col, List.mem_of_getElem? there, named⟩
      obtain ⟨k, found⟩ := Option.isSome_iff_exists.mp known
      obtain ⟨c, at_k, same⟩ := Table.getColumnIndex_some found
      rwa [unique k c at_k same] at found
    · intro row v width cell
      have first : t.columns.findIdx? (·.name == name) = some i := by
        obtain ⟨inside, at_i⟩ := List.getElem?_eq_some_iff.mp there
        rw [List.findIdx?_eq_some_iff_getElem]
        refine ⟨inside, by simpa [at_i] using named, ?_⟩
        intro j before same
        have at_j := List.getElem?_eq_getElem (before.trans inside)
        exact Nat.ne_of_lt before (unique j _ at_j (by simpa using same))
      rw [ExpressionEvaluator.evaluateIdentifier, first]
      simp only [cell]
    · intro names gives j
      rw [fills_iff gives]
      exact ⟨only j, fun same => same ▸ here⟩

end Table

/-- A name of a new table means one column everywhere exactly when the CREATE TABLE has it once. -/
theorem names_agree_iff {stmt : CreateTableStatement} {dbName : Bytes} {s s' : StorageEngine}
    {p : OkPacket} {t : Table} (created : (executeCreateTable stmt dbName).run s = .ok p s')
    (held : s'.getTable dbName stmt.tableName = some t) (name : Bytes) :
    t.Agrees name ↔ ∃! i : Nat, (stmt.columns.map (·.name))[i]? = some name := by
  have columns : t.columns.map (·.name) = stmt.columns.map (·.name) := by
    rcases createTable_obeys stmt dbName s with ⟨id, message, s'', ran, does⟩ | ⟨e, s'', ran, -⟩
    · rw [created] at ran
      cases ran
      obtain ⟨t', found, fresh⟩ := (does.created nofun).1
      rw [catalog_lookup, held] at found
      cases found
      rw [fresh.columns, List.map_map]
      rfl
    · rw [created] at ran
      cases ran
  rw [Table.agrees_iff, columns]

def pairTable (first second : String) : CreateTableStatement where
  tableName := ascii "t"
  columns := [{ name := ascii first, type := ascii "INT" }, { name := ascii second, type := ascii "INT" }]

theorem pairTable_created (first second : String) : ∃ p s',
    (executeCreateTable (pairTable first second) (ascii "test")).run .initial = .ok p s' ∧
      s'.getTable (ascii "test") (ascii "t") = some (newTable (pairTable first second)) := by
  have here : initial.getDatabase (ascii "test") = some (Database.create (ascii "test")) :=
    getDatabase_setDatabase _ _ _
  have held : initial.getOrCreateDatabase (ascii "test") =
      (some (Database.create (ascii "test")), initial) := by
    rw [getOrCreateDatabase_eq, here]
  have ran := @executeCreateTable_run _ _ _ _ (pairTable first second) (by decide) held
  exact ⟨_, _, ran, getTable_setTable _ _ _ _ _⟩

theorem names_agree_pair : ∃ p s' t,
    (executeCreateTable (pairTable "a" "b") (ascii "test")).run .initial = .ok p s' ∧
      s'.getTable (ascii "test") (ascii "t") = some t ∧ (t.Agrees (ascii "a") ↔
        ∃! i : Nat, ((pairTable "a" "b").columns.map (·.name))[i]? = some (ascii "a")) := by
  obtain ⟨p, s', created, held⟩ := pairTable_created "a" "b"
  exact ⟨p, s', _, created, held, names_agree_iff created held (ascii "a")⟩

/-- The text of a CREATE TABLE with two columns of one name. -/
theorem repeated_name_disagrees : ¬ ∀ input stmt q dbName s p s' t,
    Parser.parse.run (Parser.create input) = .ok (some (.createTable stmt)) q →
    (executeCreateTable stmt dbName).run s = .ok p s' →
    s'.getTable dbName stmt.tableName = some t → ∀ c ∈ t.columns, t.Agrees c.name := by
  intro all
  have stops : Parser.stop (ascii "CREATE TABLE t (a INT, a INT)") =
      some (some (.createTable (pairTable "a" "a")), [], .EOF_TOKEN) := by decide +kernel
  obtain ⟨q, parsed, -⟩ := Parser.run_of_stop stops
  obtain ⟨p, s', created, held⟩ := pairTable_created "a" "a"
  have agrees := all _ _ _ _ _ _ _ _ parsed created held
    { name := ascii "a", type := .int } (by rw [newTable_columns]; decide)
  obtain ⟨i, -, only⟩ := (Table.agrees_iff _ _).mp agrees
  have first : 0 = i := only 0 (by rw [newTable_columns]; rfl)
  have second : 1 = i := only 1 (by rw [newTable_columns]; rfl)
  exact absurd (first.trans second.symm) (by decide)

end TinySql
