import TinySql.Command.AutoIncrement
import TinySql.Command.InsertThenFind

/-!
# The values that an INSERT is given

An INSERT looks for the value of each column and not for the column of each value, and
`expressionToValue` has a value for every expression. Nothing that cannot be stored as it is given
is refused: a name that is no column is passed over, a number is cut where its conversion stops, and
an expression that is no literal is NULL.
-/

namespace TinySql
open StorageEngine

/-! ## Numbers as they are written -/

/-- The integer that is written as digits behind an optional sign. -/
def integerOf (text : Bytes) : Option Int :=
  let (negative, digits) := splitSign text
  if digits ≠ [] ∧ digits.all isDigit = true then
    some (if negative then -(digitsValue digits : Int) else digitsValue digits)
  else none

inductive IsSign : Bytes → Prop
  | none : IsSign []
  | plus : IsSign (ascii "+")
  | minus : IsSign (ascii "-")

inductive IsMantissa : Bytes → Prop
  | whole {digits : Bytes} (integer : IsInteger digits) : IsMantissa digits
  | point {whole places : Bytes} (integer : IsInteger (whole ++ places)) :
      IsMantissa (whole ++ ascii "." ++ places)

inductive IsExponent : Bytes → Prop
  | none : IsExponent []
  | some {mark : UInt8} {sign digits : Bytes} (e : toLower mark = 'e'.toUInt8) (signed : IsSign sign)
      (integer : IsInteger digits) : IsExponent (mark :: (sign ++ digits))

/-- The text is a decimal number from its first byte to its last. -/
def IsDecimal (text : Bytes) : Prop :=
  ∃ sign mantissa exponent, IsSign sign ∧ IsMantissa mantissa ∧ IsExponent exponent ∧
    text = sign ++ mantissa ++ exponent

theorem strtol_of_integerOf {text : Bytes} {n : Int} (written : integerOf text = some n) :
    strtol text = some n := by
  have noSpace : text.dropWhile isSpace = text := by
    cases text with
    | nil => rfl
    | cons b rest =>
        apply List.dropWhile_cons_of_neg
        by_cases minus : b = '-'.toUInt8
        · rw [minus]
          decide
        · by_cases plus : b = '+'.toUInt8
          · rw [plus]
            decide
          · rw [integerOf, splitSign, if_neg minus, if_neg plus] at written
            dsimp only at written
            by_cases digits : b :: rest ≠ [] ∧ (b :: rest).all isDigit = true
            · have digit := List.all_eq_true.mp digits.2 b List.mem_cons_self
              simp [isSpace_of_isDigit digit]
            · rw [if_neg digits] at written
              cases written
  unfold integerOf at written
  dsimp only at written
  by_cases digits : (splitSign text).2 ≠ [] ∧ (splitSign text).2.all isDigit = true
  · rw [if_pos digits] at written
    rw [strtol, noSpace]
    dsimp only
    rwa [List.takeWhile_eq_self_iff.mpr (List.all_eq_true.mp digits.2), if_neg digits.1]
  · rw [if_neg digits] at written
    cases written

theorem stoi_of_integerOf {text : Bytes} {n : Int32} (written : integerOf text = some n.toInt) :
    stoi text = .ok n := by
  rw [stoi, strtol_of_integerOf written]
  dsimp only
  rw [if_pos ⟨n.minValue_le_toInt, n.toInt_le⟩, Int32.ofInt_toInt]

theorem stoll_of_integerOf {text : Bytes} {n : Int64} (written : integerOf text = some n.toInt) :
    stoll text = .ok n := by
  rw [stoll, strtol_of_integerOf written]
  dsimp only
  rw [if_pos ⟨n.minValue_le_toInt, n.toInt_le⟩, Int64.ofInt_toInt]

/-- What a literal stands for in a column of the type: a whole integer, the number nearest to a
decimal, the string itself. -/
inductive Denotes : DataType → Expression → Value → Prop
  | int {text : Bytes} {n : Int32} (written : integerOf text = some n.toInt) :
      Denotes .int (.numberLiteral text) (.int n)
  | bigint {text : Bytes} {n : Int64} (written : integerOf text = some n.toInt) :
      Denotes .bigint (.numberLiteral text) (.bigint n)
  | float {text : Bytes} {x : Single} (decimal : IsDecimal text) (nearest : stof text = .ok x) :
      Denotes .float (.numberLiteral text) (.float x)
  | double {text : Bytes} {x : Double} (decimal : IsDecimal text) (nearest : stod text = .ok x) :
      Denotes .double (.numberLiteral text) (.double x)
  | string {type : DataType} (text : Bytes) (textual : type = .varchar ∨ type = .text) :
      Denotes type (.stringLiteral text) (.string text)
  | numeral {type : DataType} (text : Bytes) (textual : type = .varchar ∨ type = .text) :
      Denotes type (.numberLiteral text) (.string text)

theorem Denotes.value {type : DataType} {expr : Expression} {v : Value}
    (denotes : Denotes type expr v) : expressionToValue expr type = v := by
  cases denotes with
  | int written => rw [expressionToValue, stoi_of_integerOf written, orText]
  | bigint written => rw [expressionToValue, stoll_of_integerOf written, orText]
  | float decimal nearest => rw [expressionToValue, nearest, orText]
  | double decimal nearest => rw [expressionToValue, nearest, orText]
  | string text textual => rfl
  | numeral text textual => rcases textual with rfl | rfl <;> rfl

/-! ## Faithful rows -/

def Expression.isLiteral : Expression → Bool
  | .numberLiteral _ | .stringLiteral _ => true
  | .identifier _ | .binary _ _ _ => false

/-- The statement gives this expression for the column with this position and name. -/
def GivenFor (stmt : InsertStatement) (i : Nat) (name : Bytes) (expr : Expression) : Prop :=
  if stmt.columns = [] then stmt.values[i]? = some expr
  else (name, expr) ∈ stmt.columns.zip stmt.values

def Omits (stmt : InsertStatement) (i : Nat) (name : Bytes) : Prop :=
  ∀ expr, ¬ GivenFor stmt i name expr

/-- The value of the counter for a column that is omitted: others in front of it have been served
before. -/
def generatedFor (stmt : InsertStatement) (t : Table) (i : Nat) : Int64 :=
  t.nextAutoIncrement + Int64.ofNat ((t.columns.take i).countP fun col =>
    col.autoIncrement && !stmt.columns.contains col.name)

/-- The row holds what the statement gives, and elsewhere what the table has for it. -/
structure Faithful (stmt : InsertStatement) (t : Table) (row : Row) : Prop where
  width : row.length = t.columns.length
  listed : ∀ name ∈ stmt.columns, ∃ col ∈ t.columns, col.name = name
  once : stmt.columns.Nodup
  literal : ∀ expr ∈ stmt.values, expr.isLiteral = true
  held : ∀ i col expr, t.columns[i]? = some col → GivenFor stmt i col.name expr →
    ∃ v, row[i]? = some v ∧ Denotes col.type expr v
  generated : ∀ i col, t.columns[i]? = some col → Omits stmt i col.name → col.autoIncrement = true →
    ∃ n : Int32, row[i]? = some (.int n) ∧ n.toInt = (generatedFor stmt t i).toInt
  default : ∀ i col, t.columns[i]? = some col → Omits stmt i col.name → col.autoIncrement = false →
    row[i]? = some col.defaultValue

/-- There is such a row: every name is a column and stands there once, every expression is a literal
that stands for something in its column, and the counter has not left the range of an `int`. -/
structure Possible (stmt : InsertStatement) (t : Table) : Prop where
  listed : ∀ name ∈ stmt.columns, ∃ col ∈ t.columns, col.name = name
  once : stmt.columns.Nodup
  literal : ∀ expr ∈ stmt.values, expr.isLiteral = true
  denoted : ∀ i col expr, t.columns[i]? = some col → GivenFor stmt i col.name expr →
    ∃ v, Denotes col.type expr v
  counted : ∀ i col, t.columns[i]? = some col → Omits stmt i col.name → col.autoIncrement = true →
    IsInt (generatedFor stmt t i).toInt

theorem Faithful.possible {stmt : InsertStatement} {t : Table} {row : Row}
    (faithful : Faithful stmt t row) : Possible stmt t where
  listed := faithful.listed
  once := faithful.once
  literal := faithful.literal
  denoted i col expr column given := by
    obtain ⟨v, -, denotes⟩ := faithful.held i col expr column given
    exact ⟨v, denotes⟩
  counted i col column omitted automatic := by
    obtain ⟨n, -, same⟩ := faithful.generated i col column omitted automatic
    rw [← same]
    exact ⟨n.le_toInt, n.toInt_lt⟩

/-! ## The row that is stored -/

section Sources
variable {stmt : InsertStatement} {columns : List ColumnDef} {srcs : List Source} {i : Nat}
  {col : ColumnDef} {expr : Expression}

theorem find?_of_nodup {given : List (Bytes × Expression)} {name : Bytes}
    (once : (given.map Prod.fst).Nodup) (member : (name, expr) ∈ given) :
    given.find? (·.1 == name) = some (name, expr) := by
  induction given with
  | nil => cases member
  | cons pair rest ih =>
      rw [List.map_cons, List.nodup_cons] at once
      rcases List.mem_cons.mp member with rfl | later
      · exact List.find?_cons_of_pos (beq_self_eq_true name)
      · have other : pair.1 ≠ name := by
          rintro rfl
          exact once.1 (List.mem_map.mpr ⟨_, later, rfl⟩)
        rw [List.find?_cons_of_neg (by simpa using other)]
        exact ih once.2 later

theorem sources_named (known : sources stmt columns = some srcs) (named : stmt.columns ≠ []) :
    stmt.columns.length = stmt.values.length ∧
      srcs = columns.map (sourceOf (stmt.columns.zip stmt.values)) := by
  rw [sources, if_pos named] at known
  split_ifs at known with counts
  exact ⟨not_ne_iff.mp counts, (Option.some.inj known).symm⟩

theorem sources_positional (known : sources stmt columns = some srcs)
    (positional : stmt.columns = []) :
    stmt.values.length = columns.length ∧ srcs = stmt.values.map .given := by
  rw [sources, if_neg (not_not_intro positional)] at known
  split_ifs at known with counts
  exact ⟨not_ne_iff.mp counts, (Option.some.inj known).symm⟩

theorem sources_given (known : sources stmt columns = some srcs) (once : stmt.columns.Nodup)
    (column : columns[i]? = some col) (given : GivenFor stmt i col.name expr) :
    srcs[i]? = some (.given expr) := by
  unfold GivenFor at given
  split_ifs at given with positional
  · rw [(sources_positional known positional).2, List.getElem?_map, given]
    rfl
  · obtain ⟨counts, rfl⟩ := sources_named known positional
    have names : (stmt.columns.zip stmt.values).map Prod.fst = stmt.columns :=
      List.map_fst_zip counts.le
    have found := find?_of_nodup (by rwa [names]) given
    rw [List.getElem?_map, column, Option.map_some, sourceOf, found]

theorem omits_iff (known : sources stmt columns = some srcs) (column : columns[i]? = some col) :
    Omits stmt i col.name ↔ stmt.columns ≠ [] ∧ col.name ∉ stmt.columns := by
  unfold Omits GivenFor
  by_cases positional : stmt.columns = []
  · have inside : i < stmt.values.length := by
      rw [(sources_positional known positional).1]
      exact (List.getElem?_eq_some_iff.mp column).1
    simp only [if_pos positional, List.getElem?_eq_getElem inside]
    exact iff_of_false (fun none => none _ rfl) fun named => named.1 positional
  · have names : (stmt.columns.zip stmt.values).map Prod.fst = stmt.columns :=
      List.map_fst_zip (sources_named known positional).1.le
    simp only [if_neg positional]
    constructor
    · intro none
      refine ⟨positional, fun member => ?_⟩
      rw [← names] at member
      obtain ⟨⟨name, expr⟩, here, rfl⟩ := List.mem_map.mp member
      exact none expr here
    · rintro ⟨-, absent⟩ expr member
      exact absent (List.of_mem_zip member).1

theorem sourceOf_omitted (absent : col.name ∉ stmt.columns) :
    sourceOf (stmt.columns.zip stmt.values) col =
      if col.autoIncrement then .generated else .default col.defaultValue := by
  have none : (stmt.columns.zip stmt.values).find? (·.1 == col.name) = none := by
    apply List.find?_eq_none.mpr
    rintro ⟨name, expr⟩ member same
    exact absent (beq_iff_eq.mp same ▸ (List.of_mem_zip member).1)
  rw [sourceOf, none]

theorem sourceOf_isGenerated (counts : stmt.columns.length = stmt.values.length) (col : ColumnDef) :
    (sourceOf (stmt.columns.zip stmt.values) col).isGenerated =
      (col.autoIncrement && !stmt.columns.contains col.name) := by
  by_cases member : col.name ∈ stmt.columns
  · have names : (stmt.columns.zip stmt.values).map Prod.fst = stmt.columns :=
      List.map_fst_zip counts.le
    have some : ((stmt.columns.zip stmt.values).find? (·.1 == col.name)).isSome = true := by
      rw [← names] at member
      obtain ⟨pair, here, same⟩ := List.mem_map.mp member
      exact List.find?_isSome.mpr ⟨pair, here, beq_iff_eq.mpr same⟩
    obtain ⟨pair, found⟩ := Option.isSome_iff_exists.mp some
    rw [sourceOf, found]
    simp [Source.isGenerated, member]
  · rw [sourceOf_omitted member]
    cases col.autoIncrement <;> simp [Source.isGenerated, member]

end Sources

theorem cells_getElem? (next : Int64) (pairs : List (Source × ColumnDef)) (i : Nat) :
    (cells next pairs)[i]? = pairs[i]?.map fun pair =>
      pair.1.value pair.2.type (counter next ((pairs.take i).map Prod.fst)) := by
  induction pairs generalizing next i with
  | nil => rfl
  | cons pair rest ih =>
      cases i with
      | zero => rfl
      | succ i => exact ih _ i

theorem rowOf_getElem? {t : Table} {srcs : List Source} {i : Nat} {col : ColumnDef}
    {source : Source} (width : srcs.length = t.columns.length)
    (column : t.columns[i]? = some col) (here : srcs[i]? = some source) :
    (t.rowOf srcs)[i]? =
      some (source.value col.type (counter t.nextAutoIncrement (srcs.take i))) := by
  have pair : (srcs.zip t.columns)[i]? = some (source, col) :=
    List.getElem?_zip_eq_some.mpr ⟨here, column⟩
  have before : ((srcs.zip t.columns).take i).map Prod.fst = srcs.take i := by
    rw [List.map_take, List.map_fst_zip width.le]
  rw [Table.rowOf, cells_getElem?, pair, Option.map_some, before]

theorem Possible.faithful {stmt : InsertStatement} {t : Table} {srcs : List Source}
    (possible : Possible stmt t) (known : sources stmt t.columns = some srcs) :
    Faithful stmt t (t.rowOf srcs) where
  width := length_rowOf known
  listed := possible.listed
  once := possible.once
  literal := possible.literal
  held i col expr column given := by
    obtain ⟨v, denotes⟩ := possible.denoted i col expr column given
    have here := sources_given known possible.once column given
    refine ⟨v, ?_, denotes⟩
    rw [rowOf_getElem? (sources_length known) column here, Source.value, denotes.value]
  generated i col column omitted automatic := by
    have fits := possible.counted i col column omitted automatic
    obtain ⟨named, absent⟩ := (omits_iff known column).mp omitted
    obtain ⟨counts, rfl⟩ := sources_named known named
    have here : (t.columns.map (sourceOf (stmt.columns.zip stmt.values)))[i]? =
        some .generated := by
      rw [List.getElem?_map, column, Option.map_some, sourceOf_omitted absent, if_pos automatic]
    have next : counter t.nextAutoIncrement
        ((t.columns.map (sourceOf (stmt.columns.zip stmt.values))).take i) =
          generatedFor stmt t i := by
      rw [counter_eq, generatedFor, generations, ← List.map_take, List.countP_map]
      congr 3
      funext col
      exact sourceOf_isGenerated counts col
    refine ⟨_, rowOf_getElem? (List.length_map _) column here, ?_⟩
    rw [next]
    exact toInt_toInt32 fits
  default i col column omitted plain := by
    obtain ⟨named, absent⟩ := (omits_iff known column).mp omitted
    obtain ⟨counts, rfl⟩ := sources_named known named
    have here : (t.columns.map (sourceOf (stmt.columns.zip stmt.values)))[i]? =
        some (.default col.defaultValue) := by
      rw [List.getElem?_map, column, Option.map_some, sourceOf_omitted absent, plain]
      rfl
    exact rowOf_getElem? (List.length_map _) column here

/-! ## The INSERT -/

/-- If the statement is answered with OK, its table has one more row, and this is a faithful one. -/
def InsertFaithful (s : StorageEngine) (dbName : Bytes) (stmt : InsertStatement) : Prop :=
  ∀ p s', (executeInsert stmt dbName).run s = .ok p s' →
    ∃ t t' row, s.getTable dbName stmt.tableName = some t ∧
      s'.getTable dbName stmt.tableName = some t' ∧ t'.rows = t.rows ++ [row] ∧ Faithful stmt t row

/-- The number of values is right, and no NOT NULL column is left NULL. -/
def Accepted (stmt : InsertStatement) (t : Table) : Prop :=
  ∃ srcs, sources stmt t.columns = some srcs ∧ ¬ Refused srcs t.columns

theorem executeInsert_accepted {s s' : StorageEngine} {dbName : Bytes} {stmt : InsertStatement}
    {p : OkPacket} (ran : (executeInsert stmt dbName).run s = .ok p s') :
    ∃ t srcs, dbName ≠ [] ∧ s.getTable dbName stmt.tableName = some t ∧
      sources stmt t.columns = some srcs ∧ ¬ Refused srcs t.columns ∧
      s'.getTable dbName stmt.tableName = some (t.inserted srcs) := by
  rcases executeInsert_cases stmt dbName s with ⟨db, t, named, here, there⟩ | ⟨-, e, -, stops⟩
  · rw [executeInsert_spec named here there] at ran
    have found := (getTable_of_getDatabase here stmt.tableName).trans there
    cases known : sources stmt t.columns with
    | none =>
        rw [known] at ran
        cases ran
    | some srcs =>
        rw [known] at ran
        dsimp only at ran
        split_ifs at ran with refused
        obtain ⟨-, rfl⟩ := EStateM.Result.ok.inj ran
        exact ⟨t, srcs, named, found, known, refused, getTable_setTable _ _ _ _ _⟩
  · rw [stops] at ran
    cases ran

theorem executeInsert_accepts {s : StorageEngine} {dbName : Bytes} {stmt : InsertStatement}
    {t : Table} {srcs : List Source} (named : dbName ≠ [])
    (found : s.getTable dbName stmt.tableName = some t) (known : sources stmt t.columns = some srcs)
    (free : ¬ Refused srcs t.columns) :
    ∃ p s', (executeInsert stmt dbName).run s = .ok p s' := by
  obtain ⟨db, here, there⟩ := Option.bind_eq_some_iff.mp found
  rw [executeInsert_spec named here there, known]
  dsimp only
  rw [if_neg free]
  exact ⟨_, _, rfl⟩

/-- An INSERT is faithful exactly when what it would be accepted for is possible: nothing is refused
for not being so. -/
theorem executeInsert_faithful_iff (s : StorageEngine) (dbName : Bytes) (stmt : InsertStatement) :
    InsertFaithful s dbName stmt ↔ ∀ t, dbName ≠ [] → s.getTable dbName stmt.tableName = some t →
      Accepted stmt t → Possible stmt t := by
  constructor
  · rintro faithful t named found ⟨srcs, known, free⟩
    obtain ⟨p, s', ran⟩ := executeInsert_accepts named found known free
    obtain ⟨t₁, t', row, found', -, -, holds⟩ := faithful p s' ran
    obtain rfl := Option.some.inj (found.symm.trans found')
    exact holds.possible
  · intro possible p s' ran
    obtain ⟨t, srcs, named, found, known, free, stored⟩ := executeInsert_accepted ran
    have holds := (possible t named found ⟨srcs, known, free⟩).faithful known
    exact ⟨t, t.inserted srcs, t.rowOf srcs, found, stored, rfl, holds⟩

/-- `INSERT INTO t (x) VALUES (5)`. -/
def insertElsewhere : InsertStatement where
  tableName := ascii "t"
  columns := [ascii "x"]
  values := [.numberLiteral (ascii "5")]

/-- The table has no column `x`: the statement is answered with OK, and the 5 is gone. -/
theorem value_dropped : ¬ ∀ s dbName stmt, Reached s → InsertFaithful s dbName stmt := by
  intro all
  obtain ⟨t, t', row, found, -, -, faithful⟩ :=
    all (oneColumnStorage (ascii "INT")) (ascii "test") insertElsewhere (oneColumnStorage_reached _)
      (okPacket 1 []) _ rfl
  obtain rfl := Option.some.inj ((oneColumnStorage_table (ascii "INT")).symm.trans found)
  obtain ⟨col, member, name⟩ := faithful.listed (ascii "x") List.mem_cons_self
  obtain rfl : col = { name := ascii "c", type := .int } := List.mem_singleton.mp member
  exact absurd name (by decide)

end TinySql
