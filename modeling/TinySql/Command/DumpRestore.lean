import TinySql.Command.AnswerKinds
import TinySql.Command.FaithfulInsert
import TinySql.Command.InsertForms
import TinySql.Command.Journal
import TinySql.Command.TypedStorage
import TinySql.Common.FloatText

/-!
# Dump and restore

A client that reads a table can write INSERT statements from what it has received, the cells of
numeric columns as number literals and all others as string literals. The rows that these statements
store have the texts of the rows that were read.
-/

namespace TinySql
open Frame ResultSet Run StorageEngine

/-! ## Literals -/

open MySQLFieldType in
def isNumeric (columnType : UInt8) : Bool :=
  [MYSQL_TYPE_LONG, MYSQL_TYPE_LONGLONG, MYSQL_TYPE_FLOAT, MYSQL_TYPE_DOUBLE].contains columnType

def literalOf (columnType : UInt8) : Option Bytes → Expression
  | none => .identifier (ascii "NULL")
  | some text => if isNumeric columnType then .numberLiteral text else .stringLiteral text

/-- An INSERT for each row that has been received. -/
def ResultSet.inserts (tableName : Bytes) (rs : ResultSet) : List InsertStatement :=
  rs.rows.map fun row => positionalInsert tableName
    (List.zipWith literalOf (rs.columns.map ColumnDefinitionPacket.columnType) row)

/-- What becomes of a value that is sent, written as a literal and stored again. -/
def restored (type : DataType) (v : Value) : Value :=
  expressionToValue (literalOf (dataTypeToMySQLType type) (cellText v)) type

theorem integerOf_intToString (n : Int) : integerOf (intToString n) = some n := by
  obtain ⟨some, digits⟩ := natToString_isInteger n.natAbs
  have all : (natToString n.natAbs).all isDigit = true := List.all_eq_true.mpr digits
  have unsigned : splitSign (natToString n.natAbs) = (false, natToString n.natAbs) := by
    obtain ⟨b, rest, text⟩ := List.exists_cons_of_ne_nil some
    have digit := digits b (by simp [text])
    have other (sign : UInt8) (noDigit : isDigit sign = false) : b ≠ sign := by
      rintro rfl
      cases noDigit.symm.trans digit
    rw [text, splitSign, if_neg (other _ (by decide)), if_neg (other _ (by decide))]
  unfold intToString
  split
  · have signed : splitSign ('-'.toUInt8 :: natToString n.natAbs) = (true, natToString n.natAbs) := rfl
    simp only [integerOf, signed, some, all, digitsValue_natToString, ne_eq, not_false_eq_true,
      and_self, if_true, Option.some.injEq]
    omega
  · simp only [integerOf, unsigned, some, all, digitsValue_natToString, ne_eq, not_false_eq_true,
      and_self, if_true, Bool.false_eq_true, if_false, Option.some.injEq]
    omega

section Restored
variable {type : DataType} {v : Value}

theorem restored_isNull (type : DataType) (v : Value) : (restored type v).isNull = v.isNull := by
  have source := Source.value_isNull (.given (literalOf (dataTypeToMySQLType type) (cellText v))) type 0
  rw [restored]
  refine source.trans ?_
  cases v <;> cases type <;> rfl

/-- All but the digits of a float that are not printed comes back. -/
theorem restored_eq (typed : type.holds v = true)
    (printed : type = .int ∨ type = .bigint ∨ type = .varchar ∨ type = .text) :
    restored type v = v := by
  cases v with
  | null => rfl
  | int n =>
      obtain rfl : type = .int := by cases type <;> first | rfl | cases typed
      exact (Denotes.int (integerOf_intToString n.toInt)).value
  | bigint n =>
      obtain rfl : type = .bigint := by cases type <;> first | rfl | cases typed
      exact (Denotes.bigint (integerOf_intToString n.toInt)).value
  | string text => rcases (holds_string_iff type text).mp typed with rfl | rfl <;> rfl
  | _ => rcases printed with rfl | rfl | rfl | rfl <;> cases typed

theorem restored_text (typed : type.holds v = true) : cellText (restored type v) = cellText v := by
  cases v with
  | float x =>
      obtain rfl : type = .float := by cases type <;> first | rfl | cases typed
      obtain ⟨y, read, same⟩ := stof_fixed x
      have back : restored .float (.float x) = .float y :=
        congrArg (orText (fixed 2 x) Value.float) read
      rw [back]
      exact congrArg some same
  | double x =>
      obtain rfl : type = .double := by cases type <;> first | rfl | cases typed
      obtain ⟨y, read, same⟩ := stod_fixed x
      have back : restored .double (.double x) = .double y :=
        congrArg (orText (fixed 4 x) Value.double) read
      rw [back]
      exact congrArg some same
  | bool b =>
      obtain rfl : type = .boolean := by cases type <;> first | rfl | cases typed
      rfl
  | null => rfl
  | int n =>
      obtain rfl : type = .int := by cases type <;> first | rfl | cases typed
      rw [restored_eq typed (.inl rfl)]
  | bigint n =>
      obtain rfl : type = .bigint := by cases type <;> first | rfl | cases typed
      rw [restored_eq typed (.inr (.inl rfl))]
  | string text => rw [restored_eq typed (.inr (.inr ((holds_string_iff type text).mp typed)))]

theorem restored_restored (typed : type.holds v = true) :
    restored type (restored type v) = restored type v := by
  rw [restored, restored_text typed]
  rfl

/-- What is restored has the same text, and it is the same but for the digits of a float that are not
printed. From the first time on nothing is lost. -/
structure Restores (type : DataType) (v : Value) : Prop where
  text : cellText (restored type v) = cellText v
  exact : type = .int ∨ type = .bigint ∨ type = .varchar ∨ type = .text → restored type v = v
  again : restored type (restored type v) = restored type v

theorem restores (typed : type.holds v = true) : Restores type v :=
  ⟨restored_text typed, restored_eq typed, restored_restored typed⟩

end Restored

/-! ## Rows -/

def restoredRow (columns : List ColumnDef) (row : Row) : Row :=
  List.zipWith (fun v col => restored col.type v) row columns

def dumped (tableName : Bytes) (columns : List ColumnDef) (row : Row) : InsertStatement :=
  positionalInsert tableName
    (List.zipWith literalOf (columns.map (dataTypeToMySQLType ·.type)) (row.map cellText))

section Rows
variable {columns : List ColumnDef} {row : Row}

theorem sources_dumped (tableName : Bytes) (wide : row.length = columns.length) :
    sources (dumped tableName columns row) columns =
      some ((dumped tableName columns row).values.map .given) := by
  simp [sources, dumped, positionalInsert, wide]

theorem zipWith_dumped (tableName : Bytes) (row : Row) (columns : List ColumnDef) :
    List.zipWith (fun expr col => expressionToValue expr col.type)
      (dumped tableName columns row).values columns = restoredRow columns row := by
  induction row generalizing columns with
  | nil => cases columns <;> rfl
  | cons v rest ih =>
      cases columns with
      | nil => rfl
      | cons col columns => exact congrArg _ (ih columns)

theorem admissible_restoredRow (admissible : Admissible columns row) :
    Admissible columns (restoredRow columns row) := by
  obtain ⟨wide, filled⟩ := admissible
  constructor
  · rw [restoredRow, List.length_zipWith, wide, Nat.min_self]
  · induction row generalizing columns with
    | nil => simp [restoredRow]
    | cons v rest ih =>
        cases columns with
        | nil => simp
        | cons col columns =>
            rw [List.zip_cons_cons, List.forall_mem_cons] at filled
            rw [restoredRow, List.zipWith_cons_cons, List.zip_cons_cons, List.forall_mem_cons]
            constructor
            · intro notNull null
              have same := restored_isNull col.type v
              rw [show restored col.type v = .null from null] at same
              cases v with
              | null => exact filled.1 notNull rfl
              | _ => cases same
            · exact ih (Nat.succ.inj wide) filled.2

def Table.appended (rows : List Row) (t : Table) : Table := { t with rows := t.rows ++ rows }

theorem inserted_dumped {t : Table} (tableName : Bytes) (admissible : Admissible t.columns row) :
    ∃ srcs, sources (dumped tableName t.columns row) t.columns = some srcs ∧
      ¬ Refused srcs t.columns ∧ t.inserted srcs = t.appended [restoredRow t.columns row] := by
  have known := sources_dumped tableName admissible.1
  have built : t.rowOf ((dumped tableName t.columns row).values.map .given) =
      restoredRow t.columns row := by
    rw [Table.rowOf, cells_given, zipWith_dumped]
  refine ⟨_, known, (admissible_rowOf known).mp ?_, ?_⟩
  · rw [built]
    exact admissible_restoredRow admissible
  · rw [Table.inserted, built, Table.counted, counter_given, Table.appended]

end Rows

/-! ## Conversations -/

namespace System

/-- The session has this table in its current database. -/
structure Sees (i : Nat) (tableName : Bytes) (t : Table) (s : System) : Prop where
  named : (s.sessions i).currentDatabase ≠ []
  found : s.storage.getTable (s.sessions i).currentDatabase tableName = some t

/-- Nothing but this table has changed. -/
structure Keeps (d n : Bytes) (s s' : System) : Prop where
  current : ∀ i, (s'.sessions i).currentDatabase = (s.sessions i).currentDatabase
  others : ∀ d' n', ¬ (d' = d ∧ n' = n) → s'.storage.getTable d' n' = s.storage.getTable d' n'

variable {s s' : System} {i : Nat} {n : Bytes} {t : Table}

theorem current_after {e : Exec} (same : e.session.currentDatabase = (s.sessions i).currentDatabase)
    (i' : Nat) : ((s.after i e).sessions i').currentDatabase = (s.sessions i').currentDatabase := by
  by_cases here : i' = i
  · subst here
    simpa [after] using same
  · simp [after, here]

theorem answers_dumped (sees : s.Sees i n t) {row : Row} (admissible : Admissible t.columns row) :
    ∃ response s', Answers s ((i, .insert (dumped n t.columns row)), response) s' ∧
      answeredOk response = true ∧ Keeps (s.sessions i).currentDatabase n s s' ∧
      s'.Sees i n (t.appended [restoredRow t.columns row]) := by
  obtain ⟨srcs, known, free, inserted⟩ := inserted_dumped n admissible
  obtain ⟨db, here, there⟩ := Option.bind_eq_some_iff.mp sees.found
  have ran := @executeInsert_spec _ _ _ _ (dumped n t.columns row) sees.named here there
  rw [known] at ran
  dsimp only at ran
  rw [if_neg free, inserted] at ran
  refine ⟨packet (s.sessions i).sequenceId (okPacket 1 []).payload, _,
    ⟨_, (execute_insert_run _ _).trans (answer_run_ok ran), rfl, rfl⟩, ?_, ⟨current_after rfl, ?_⟩,
    ?_, ?_⟩
  · rw [answeredOk, OkPacket.first]
    rfl
  · exact fun d' n' other => getTable_setTable_ne here other
  · rw [current_after rfl]
    exact sees.named
  · rw [current_after rfl]
    exact getTable_setTable _ _ _ _ _

theorem Keeps.refl (d n : Bytes) (s : System) : Keeps d n s s := ⟨fun _ => rfl, fun _ _ _ => rfl⟩

theorem Keeps.trans {d : Bytes} {s'' : System} (first : Keeps d n s s') (second : Keeps d n s' s'') :
    Keeps d n s s'' where
  current i := (second.current i).trans (first.current i)
  others d' n' other := (second.others d' n' other).trans (first.others d' n' other)

theorem runs_dumped {rows : List Row} (sees : s.Sees i n t)
    (admissible : ∀ row ∈ rows, Admissible t.columns row) :
    ∃ run s', Runs Answers s run s' ∧
      run.map Prod.fst = rows.map (fun row => (i, .insert (dumped n t.columns row))) ∧
      (∀ x ∈ run, answeredOk x.2 = true) ∧ Keeps (s.sessions i).currentDatabase n s s' ∧
      s'.Sees i n (t.appended (rows.map (restoredRow t.columns))) := by
  induction rows generalizing s t with
  | nil => exact ⟨[], s, .nil s, rfl, by simp, .refl _ _ s, by simpa [Table.appended] using sees⟩
  | cons row rest ih =>
      obtain ⟨here, later⟩ := List.forall_mem_cons.mp admissible
      obtain ⟨response, s', first, ok, kept, sees'⟩ := answers_dumped sees here
      obtain ⟨run, s'', runs, same, oks, kept', sees''⟩ := ih sees' later
      rw [kept.current] at kept'
      refine ⟨((i, .insert (dumped n t.columns row)), response) :: run, s'', .cons first runs, ?_, ?_,
        kept.trans kept', ?_⟩
      · rw [List.map_cons, same]
        rfl
      · exact List.forall_mem_cons.mpr ⟨ok, oks⟩
      · simpa [Table.appended] using sees''

end System

/-! ## A whole table -/

theorem columnsAt_range (t : Table) : columnsAt t (List.range t.columns.length) = t.columns := by
  obtain ⟨positions, found, -⟩ :=
    @resolveColumns_ok t [.identifier (ascii "*")] t.columns.zipIdx (if_pos rfl)
  have all := found.columnsAt
  rwa [List.zipIdx_map_snd, List.zipIdx_map_fst, ← List.range_eq_range'] at all

theorem project_range {row : Row} {width : Nat} (wide : row.length = width) :
    project (List.range width) row = row := by
  subst wide
  apply List.ext_getElem
  · simp [project]
  · intro k inside inside'
    simp [project, inside']

theorem selectedRows_star (tableName : Bytes) (t : Table) :
    selectedRows (Parser.starStatement tableName (-1)) t = t.rows := by
  have negative : ((-1 : Int32) < 0) := by decide
  have all : t.rows.filter (satisfies none t.columns) = t.rows := List.filter_eq_self.mpr fun _ _ => rfl
  simp only [selectedRows, Parser.starStatement, all, negative, if_true]
  rfl

def Table.everything (tableName dbName : Bytes) (t : Table) : Selection :=
  ⟨definitions t.columns tableName dbName, t.rows⟩

theorem inserts_everything {tableName dbName : Bytes} {t : Table} (target : Bytes) :
    (t.everything tableName dbName).resultSet.inserts target =
      t.rows.map (dumped target t.columns) := by
  have types : (definitions t.columns tableName dbName).map ColumnDefinitionPacket.columnType =
      t.columns.map (dataTypeToMySQLType ·.type) := by
    rw [definitions, List.map_map]
    rfl
  simp only [ResultSet.inserts, Selection.resultSet, Table.everything, types, List.map_map]
  rfl

namespace System

theorem answers_star (sees : s.Sees i n t) (reached : Reached s.storage)
    (count : t.columns.length < 2 ^ 64)
    (fits : (t.everything n (s.sessions i).currentDatabase).Deliverable) :
    ∃ response s', Answers s ((i, .select (Parser.starStatement n (-1))), response) s' ∧
      decode response = some (t.everything n (s.sessions i).currentDatabase).resultSet ∧
      s'.storage = s.storage ∧
      ∀ i', (s'.sessions i').currentDatabase = (s.sessions i').currentDatabase := by
  obtain ⟨db, here, there⟩ := Option.bind_eq_some_iff.mp sees.found
  obtain ⟨result, returns⟩ := @starStatement_rows s.storage n _ (-1) db t sees.named here there
  have widths : ∀ row ∈ t.rows, row.length = t.columns.length :=
    fun row member => (reached.allAdmissible _ _ t sees.found row member).1
  rcases @selectRows_cases (Parser.starStatement n (-1)) _ _ _ sees.found (Int32.le_refl 0) with
    ⟨p, stops⟩ | ⟨positions, asked, inside, -, -, ends⟩
  · cases returns.symm.trans stops
  · obtain rfl : List.range t.columns.length = positions := Option.some.inj asked
    rw [columnsAt_range, selectedRows_star] at ends
    obtain ⟨e, response, ran, events, shown⟩ := executeSelect_sent (e := s.exec i) ends count
      fun row member k at_ => by
        rw [widths row member]
        exact inside k at_
    have reads : TinySql.Reads (s.exec i) e := by
      have all := select_reads (Parser.starStatement n (-1)) (s.exec i)
      rwa [ran] at all
    have rows : t.rows.map (project (List.range t.columns.length)) = t.rows := by
      conv_rhs => rw [← List.map_id t.rows]
      exact List.map_congr_left fun row member => project_range (widths row member)
    dsimp only at shown
    rw [rows] at shown
    refine ⟨response, _, ⟨e, (execute_select_run _ _).trans ran, events, rfl⟩, ?_, reads.storage,
      current_after reads.current⟩
    have length : (t.everything n (s.sessions i).currentDatabase).columns.length = t.columns.length :=
      length_definitions t.columns n _
    rw [shown]
    refine decode_packets (by rwa [length]) (fun p member => fits _ (mem_payloads_column member)) ?_
      (fun row member => fits _ (mem_payloads_row member)) rfl _
    intro row member
    rw [length, widths row member]

/-- A table can be read as a whole and inserted, row by row, into one of the same columns: every
INSERT is answered with OK, the rows end up behind those that were there, in their order and with the
same texts, and no other table changes. Only the digits of a float that are not printed are lost, and
only the first time. -/
theorem dump_restored {i' : Nat} {n' : Bytes} {t' : Table} (reached : Reached s.storage)
    (sees : s.Sees i n t) (sees' : s.Sees i' n' t') (columns : t'.columns = t.columns)
    (typed : t.Typed) (count : t.columns.length < 2 ^ 64)
    (fits : (t.everything n (s.sessions i).currentDatabase).Deliverable) :
    ∃ response rs s₁ run s₂,
      Answers s ((i, .select (Parser.starStatement n (-1))), response) s₁ ∧
      decode response = some rs ∧ Runs Answers s₁ run s₂ ∧
      run.map Prod.fst = (rs.inserts n').map (fun stmt => (i', .insert stmt)) ∧
      (∀ x ∈ run, answeredOk x.2 = true) ∧
      s₂.Sees i' n' (t'.appended (t.rows.map (restoredRow t.columns))) ∧
      (∀ row ∈ t.rows, ∀ cell ∈ row.zip t.columns, Restores cell.2.type cell.1) ∧
      Keeps (s.sessions i').currentDatabase n' s s₂ := by
  obtain ⟨response, s₁, selected, decoded, storage, current⟩ := answers_star sees reached count fits
  have seen : s₁.Sees i' n' t' := by
    constructor
    · rw [current]
      exact sees'.named
    · rw [current, storage]
      exact sees'.found
  have admissible : ∀ row ∈ t.rows, Admissible t'.columns row := by
    rw [columns]
    exact reached.allAdmissible _ _ t sees.found
  obtain ⟨run, s₂, runs, same, oks, kept, sees₂⟩ := runs_dumped seen admissible
  rw [current] at kept
  rw [columns] at same sees₂
  refine ⟨response, _, s₁, run, s₂, selected, decoded, runs, ?_, oks, sees₂, ?_, ?_⟩
  · rw [same, inserts_everything, List.map_map]
    rfl
  · exact fun row member cell inside => restores (typed row member cell inside)
  · exact .trans ⟨current, fun d n _ => by rw [storage]⟩ kept

/-! ## A table of prices -/

def prices (tableName : Bytes) : CreateTableStatement where
  tableName := tableName
  columns := [{ name := ascii "id", type := ascii "INT", notNull := true },
    { name := ascii "price", type := ascii "FLOAT" }]

def pricesRun : List Change :=
  [.createTable (prices (ascii "t")) (ascii "test"), .createTable (prices (ascii "u")) (ascii "test"),
    .insert (positionalInsert (ascii "t") [.numberLiteral (ascii "5"), .numberLiteral (ascii "0.125")])
      (ascii "test"),
    .insert (positionalInsert (ascii "t") [.numberLiteral (ascii "-6"), .identifier (ascii "NULL")])
      (ascii "test")]

def pricesSystem : System where
  sessions := fun _ => { connectionId := 1, state := .authenticated, currentDatabase := ascii "test" }
  storage := pricesRun.foldl (fun s c => Frame.final (c.body.run s)) initial

theorem pricesSystem_reached : Reached pricesSystem.storage :=
  ⟨pricesRun, .cons rfl (.cons rfl (.cons rfl (.cons rfl (.nil _))))⟩

/-- The price 0.125 is printed as 0.12, and a copy of the table holds 0.12. -/
theorem pricesSystem_restored : ∃ t t' : Table, t'.rows = [] ∧
    t.rows.map (·.map cellText) =
      [[some (ascii "5"), some (ascii "0.12")], [some (ascii "-6"), none]] ∧
    ∃ response rs s₁ run s₂,
      Answers pricesSystem ((0, .select (Parser.starStatement (ascii "t") (-1))), response) s₁ ∧
      decode response = some rs ∧ Runs Answers s₁ run s₂ ∧
      run.map Prod.fst = (rs.inserts (ascii "u")).map (fun stmt => (1, .insert stmt)) ∧
      (∀ x ∈ run, answeredOk x.2 = true) ∧
      s₂.Sees 1 (ascii "u") (t'.appended (t.rows.map (restoredRow t.columns))) ∧
      (∀ row ∈ t.rows, ∀ cell ∈ row.zip t.columns, Restores cell.2.type cell.1) ∧
      Keeps (ascii "test") (ascii "u") pricesSystem s₂ := by
  have source : (pricesSystem.storage.getTable (ascii "test") (ascii "t")).any (fun t =>
      decide (t.columns = (prices []).columns.map columnDef ∧ t.rows.map (·.map cellText) =
        [[some (ascii "5"), some (ascii "0.12")], [some (ascii "-6"), none]]) &&
      t.rows.all (fun row => (row.zip t.columns).all fun cell => cell.2.type.holds cell.1) &&
      (payloads (definitions t.columns (ascii "t") (ascii "test")) t.rows resultSetEof.payload).all
        fun payload => payload.length < 2 ^ 24) = true := by decide +kernel
  have target : (pricesSystem.storage.getTable (ascii "test") (ascii "u")).any (fun t =>
      decide (t.columns = (prices []).columns.map columnDef ∧ t.rows = [])) = true := by
    decide +kernel
  obtain ⟨t, found, holds⟩ := (Option.any_eq_true _ _).mp source
  obtain ⟨t', found', holds'⟩ := (Option.any_eq_true _ _).mp target
  simp only [Bool.and_eq_true, decide_eq_true_eq, List.all_eq_true] at holds holds'
  obtain ⟨⟨⟨columns, rows⟩, typed⟩, fits⟩ := holds
  refine ⟨t, t', holds'.2, rows, ?_⟩
  apply dump_restored pricesSystem_reached ⟨by decide, found⟩ ⟨by decide, found'⟩
  · rw [holds'.1, columns]
  · exact typed
  · rw [columns]
    decide
  · exact fits

end System

end TinySql
