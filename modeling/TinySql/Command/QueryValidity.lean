import TinySql.Command.Answers
import TinySql.Command.InsertThenFind
import TinySql.Storage.WhereReach

/-!
# Which SELECTs are refused

The field list is checked against the columns of the table before any row is looked at. The WHERE
clause is not checked at all: it fails, if it does, on a row.
-/

namespace TinySql
open ExpressionEvaluator Frame ResultSet StorageEngine Wire

def IsField (columns : List ColumnDef) (expr : Expression) : Prop :=
  ∃ c ∈ columns, expr = .identifier c.name

def FieldsKnown (stmt : SelectStatement) (columns : List ColumnDef) : Prop :=
  stmt.columns = [.identifier (ascii "*")] ∨ ∀ expr ∈ stmt.columns, IsField columns expr

/-- The WHERE clause has a truth value in the row. -/
def WhereDecides (stmt : SelectStatement) (columns : List ColumnDef) (row : Row) : Prop :=
  HasValue (matchesWhere stmt.whereClause columns row)

/-- The table that the statement is about is there, with rows of its width. -/
structure Stores (e : Exec) (stmt : SelectStatement) (t : Table) : Prop where
  found : e.storage.getTable e.session.currentDatabase stmt.tableName = some t
  wide : ∀ row ∈ t.rows, row.length = t.columns.length

/-- The WHERE clause names a column that is not there, or uses an operator that is not supported. -/
def Unsupported (stmt : SelectStatement) (columns : List ColumnDef) : Prop :=
  ∃ expr, stmt.whereClause = some expr ∧
    ((∃ name ∈ expr.names, name ∉ columns.map ColumnDef.name) ∨
      ∃ op ∈ expr.operators, ¬ IsOperatorSymbol op)

/-- Two tables with these columns differ in their rows, but not in whether the statement is answered
with ERR; an unsupported WHERE clause is answered with ERR whatever the rows are. -/
structure IgnoresRows (stmt : SelectStatement) (columns : List ColumnDef) : Prop where
  same : ∀ e e' t t', e.session.currentDatabase = e'.session.currentDatabase →
    Stores e stmt t → Stores e' stmt t' → t.columns = columns → t'.columns = columns →
      (ErrSent (executeSelect stmt) e ↔ ErrSent (executeSelect stmt) e')
  rejects : Unsupported stmt columns → ∀ e t, Stores e stmt t → t.columns = columns →
    ErrSent (executeSelect stmt) e

/-- A WHERE clause, if there is one, has known columns and supported operators, and in no row of the
width of the table is a number literal looked at that stands for no value. -/
def ClauseReadable (stmt : SelectStatement) (columns : List ColumnDef) : Prop :=
  ∀ expr, stmt.whereClause = some expr → ∃ c : Condition, c.toExpression = expr ∧
    (∀ name ∈ expr.names, name ∈ columns.map ColumnDef.name) ∧
    ∀ row : Row, row.length = columns.length → c.Reads (.ofRow row columns)

/-! ## The checks, one after the other -/

theorem resolveColumn_hasField (t : Table) (expr : Expression) :
    (∃ found, resolveColumn t expr = .ok found) ↔ IsField t.columns expr := by
  cases expr with
  | identifier name =>
      have known : IsField t.columns (.identifier name) ↔ (t.getColumnIndex name).isSome := by
        rw [Table.getColumnIndex_isSome]
        simp [IsField, eq_comm]
      rw [known]
      cases index : t.getColumnIndex name with
      | none => simp [resolveColumn, index]
      | some i =>
          obtain ⟨c, here, -⟩ := Table.getColumnIndex_some index
          simp [resolveColumn, index, here]
  | _ => simp [resolveColumn, IsField]

theorem mapM_ok_iff {α β ε : Type} {f : α → Except ε β} {as : List α} :
    (∃ bs, as.mapM f = .ok bs) ↔ ∀ a ∈ as, ∃ b, f a = .ok b := by
  induction as with
  | nil => simp [pure, Except.pure]
  | cons a rest ih =>
      rw [List.forall_mem_cons, ← ih, List.mapM_cons]
      cases f a with
      | error e => simp [bind, Except.bind]
      | ok b => cases rest.mapM f <;> simp [bind, Except.bind, pure, Except.pure]

theorem resolveColumns_ok_iff (stmt : SelectStatement) (t : Table) :
    (∃ found, resolveColumns t stmt.columns = .ok found) ↔ FieldsKnown stmt t.columns := by
  unfold resolveColumns FieldsKnown
  split_ifs with star
  · simp [star]
  · rw [mapM_ok_iff]
    simp only [resolveColumn_hasField, star, false_or]

theorem filterRows_ok_iff {keep : Row → Except Exn Bool} {rows : List Row} :
    (∃ kept, filterRows keep rows = .ok kept) ↔ ∀ row ∈ rows, HasValue (keep row) := by
  constructor
  · rintro ⟨kept, filtered⟩
    induction rows generalizing kept with
    | nil => exact fun row member => absurd member List.not_mem_nil
    | cons row rest ih =>
        rw [filterRows] at filtered
        cases here : keep row with
        | error e =>
            rw [here] at filtered
            cases filtered
        | ok b =>
            cases later : filterRows keep rest with
            | error e =>
                rw [here, later] at filtered
                cases filtered
            | ok others => exact List.forall_mem_cons.mpr ⟨⟨b, here⟩, ih others later⟩
  · exact filterRows_total

/-! ## The answer -/

theorem selectRows_ok_iff {stmt : SelectStatement} {dbName : Bytes} {s : StorageEngine} {t : Table}
    (found : s.getTable dbName stmt.tableName = some t) :
    (∃ result, (selectRows stmt dbName).run s = .ok result s) ↔
      dbName ≠ [] ∧ FieldsKnown stmt t.columns ∧ ∀ row ∈ t.rows, WhereDecides stmt t.columns row := by
  by_cases named : dbName = []
  · subst named
    exact iff_of_false nofun fun selected => selected.1 rfl
  · obtain ⟨db, here, there⟩ := Option.bind_eq_some_iff.mp found
    have rows : (∀ row ∈ t.rows, WhereDecides stmt t.columns row) ↔
        ∃ kept, filterRows (matchesWhere stmt.whereClause t.columns) t.rows = .ok kept :=
      filterRows_ok_iff.symm
    rw [selectRows_run named here there, ← resolveColumns_ok_iff, rows]
    cases resolveColumns t stmt.columns with
    | error p => simp
    | ok fields =>
        cases filterRows (matchesWhere stmt.whereClause t.columns) t.rows with
        | error e => simp
        | ok kept => simp [named]

theorem sentPayloads_first (sequenceId : UInt8) (result : SelectResult) (tableName dbName : Bytes) :
    (packets sequenceId (sentPayloads result tableName dbName))[4]? ≠ some 0xFF := by
  rw [sentPayloads, packets, List.getElem?_append_left, packet_first]
  · exact (lenencBytes_first _).1
  · rw [length_packet, length_lenencBytes]
    split_ifs <;> decide

theorem errSent_select_iff {stmt : SelectStatement} {e : Exec} {t : Table} (stores : Stores e stmt t) :
    ErrSent (executeSelect stmt) e ↔ ¬ (e.session.currentDatabase ≠ [] ∧
      FieldsKnown stmt t.columns ∧ ∀ row ∈ t.rows, WhereDecides stmt t.columns row) := by
  rw [← selectRows_ok_iff stores.found]
  rcases selectRows_ends stmt e.session.currentDatabase e.storage with
    ⟨p, stops⟩ | ⟨t', fields, kept, -, -, -, ends⟩
  · have refused : ErrSent (executeSelect stmt) e :=
      (errSent_of_responded ((executeSelect_refused stops).trans (sendErr_run p _)) rfl).mpr (p.first _)
    exact iff_of_true refused (by simp [stops])
  · have inside : ∀ row ∈ applyLimit stmt.offset stmt.limit kept, ∀ i ∈ fields.map Prod.snd,
        i < row.length := by
      obtain ⟨t', found, stored, positions⟩ := selectRows_ok ends
      obtain rfl := Option.some.inj (stores.found.symm.trans found)
      intro row member i at_
      rw [stores.wide row (stored row member)]
      exact positions i at_
    obtain ⟨e', response, ran, events, shown⟩ := executeSelect_sends ends inside
    have answered : ¬ ErrSent (executeSelect stmt) e := by
      rintro ⟨response', sent, isErr⟩
      rw [ran, final, events, List.drop_left] at sent
      obtain rfl : response' = response := by simpa using sent
      rw [shown] at isErr
      exact sentPayloads_first _ _ _ _ isErr
    exact iff_of_false answered (by simp [ends])

/-! ## Two tables -/

theorem exists_stores (stmt : SelectStatement) (columns : List ColumnDef) (rows : List Row)
    (wide : ∀ row ∈ rows, row.length = columns.length) :
    ∃ e t, e.session.currentDatabase = ascii "test" ∧ Stores e stmt t ∧ t.columns = columns ∧
      t.rows = rows := by
  have added (cols : List ColumnDef) (t : Table) :
      (cols.foldl (fun t column => t.addColumn column) t).columns = t.columns ++ cols := by
    induction cols generalizing t with
    | nil => simp
    | cons c rest ih => rw [List.foldl_cons, ih, Table.addColumn, List.append_assoc]; rfl
  let t : Table := { columns.foldl (fun t column => t.addColumn column)
    (Table.create stmt.tableName) with rows := rows }
  have shape : t.columns = columns := added columns _
  let storage := initial.setTable (ascii "test") (Database.create (ascii "test")) stmt.tableName t
  refine ⟨⟨{ connectionId := 1, currentDatabase := ascii "test" }, storage, []⟩, t, rfl, ⟨?_, ?_⟩,
    shape, rfl⟩
  · exact getTable_setTable _ _ _ _ _
  · rw [shape]
    exact wide

theorem whereDecides_iff {stmt : SelectStatement} {columns : List ColumnDef} {c : Condition} {row : Row}
    (clause : stmt.whereClause = some c.toExpression) (wide : row.length = columns.length)
    (known : ∀ name ∈ c.toExpression.names, name ∈ columns.map ColumnDef.name) :
    WhereDecides stmt columns row ↔ c.Reads (.ofRow row columns) := by
  rw [WhereDecides, clause]
  exact (evaluate_hasValue_iff (Condition.Valuation.ofRow_extends row columns) wide c known).1

theorem ClauseReadable.decides {stmt : SelectStatement} {columns : List ColumnDef} {row : Row}
    (readable : ClauseReadable stmt columns) (wide : row.length = columns.length) :
    WhereDecides stmt columns row := by
  cases clause : stmt.whereClause with
  | none =>
      rw [WhereDecides, clause]
      exact ⟨true, rfl⟩
  | some expr =>
      obtain ⟨c, rfl, known, reads⟩ := readable expr clause
      exact (whereDecides_iff clause wide known).mpr (reads row wide)

theorem ClauseReadable.supported {stmt : SelectStatement} {columns : List ColumnDef}
    (readable : ClauseReadable stmt columns) : ¬ Unsupported stmt columns := by
  rintro ⟨expr, clause, unsupported⟩
  obtain ⟨c, rfl, known, -⟩ := readable expr clause
  rcases unsupported with ⟨name, member, unknown⟩ | ⟨op, member, unknown⟩
  · exact unknown (known name member)
  · exact unknown (c.operators_toExpression op member)

/-- A clause that is supported and yet not readable has no truth value in some row. -/
theorem exists_undecided {stmt : SelectStatement} {columns : List ColumnDef}
    (supported : ¬ Unsupported stmt columns) (unreadable : ¬ ClauseReadable stmt columns) :
    ∃ row : Row, row.length = columns.length ∧ ¬ WhereDecides stmt columns row := by
  unfold ClauseReadable at unreadable
  push Not at unreadable
  obtain ⟨expr, clause, fails⟩ := unreadable
  have operators : ∀ op ∈ expr.operators, IsOperatorSymbol op := fun op member =>
    not_not.mp fun unknown => supported ⟨expr, clause, .inr ⟨op, member, unknown⟩⟩
  have names : ∀ name ∈ expr.names, name ∈ columns.map ColumnDef.name := fun name member =>
    not_not.mp fun unknown => supported ⟨expr, clause, .inl ⟨name, member, unknown⟩⟩
  obtain ⟨c, rfl⟩ := Condition.exists_toExpression operators
  obtain ⟨row, wide, stops⟩ := fails c rfl names
  exact ⟨row, wide, fun decides => stops ((whereDecides_iff clause wide names).mp decides)⟩

theorem errSent_of_unknown {stmt : SelectStatement} {e : Exec} {t : Table} (stores : Stores e stmt t)
    (unknown : ¬ FieldsKnown stmt t.columns) : ErrSent (executeSelect stmt) e :=
  (errSent_select_iff stores).mpr fun answered => unknown answered.2.1

theorem ignoresRows_of {stmt : SelectStatement} {columns : List ColumnDef}
    (settled : ¬ FieldsKnown stmt columns ∨ ClauseReadable stmt columns) : IgnoresRows stmt columns := by
  rcases settled with unknown | readable
  · constructor
    · intro e e' t t' session stores stores' shape shape'
      exact iff_of_true (errSent_of_unknown stores (shape ▸ unknown))
        (errSent_of_unknown stores' (shape' ▸ unknown))
    · exact fun _ e t stores shape => errSent_of_unknown stores (shape ▸ unknown)
  · constructor
    · intro e e' t t' session stores stores' shape shape'
      have first : ∀ row ∈ t.rows, WhereDecides stmt columns row :=
        fun row member => readable.decides (shape ▸ stores.wide row member)
      have second : ∀ row ∈ t'.rows, WhereDecides stmt columns row :=
        fun row member => readable.decides (shape' ▸ stores'.wide row member)
      rw [errSent_select_iff stores, errSent_select_iff stores', session, shape, shape',
        eq_true first, eq_true second]
    · exact fun unsupported => absurd unsupported readable.supported

/-- A well-formed WHERE clause is never the reason for an ERR. -/
theorem ignoresRows_of_wellFormed {stmt : SelectStatement} {columns : List ColumnDef}
    {expr : Expression} (clause : stmt.whereClause = some expr) (wellFormed : WellFormed columns expr) :
    IgnoresRows stmt columns := by
  obtain ⟨names, operators⟩ := wellFormed.supported
  obtain ⟨c, rfl⟩ := Condition.exists_toExpression operators
  apply ignoresRows_of
  right
  intro expr same
  cases clause.symm.trans same
  refine ⟨c, rfl, names, fun row wide => (whereDecides_iff clause wide names).mp ?_⟩
  rw [WhereDecides, clause]
  exact (wellFormed.hasValue wide).1

/-- Whether a SELECT is refused does not depend on the rows, and an unsupported WHERE clause is always
a reason, exactly when the field list is refused anyway or the WHERE clause is readable. -/
theorem ignoresRows_iff (stmt : SelectStatement) (columns : List ColumnDef) :
    IgnoresRows stmt columns ↔ ¬ FieldsKnown stmt columns ∨ ClauseReadable stmt columns := by
  constructor
  · intro ignores
    by_contra depends
    obtain ⟨known, unreadable⟩ := not_or.mp depends
    have known := not_not.mp known
    obtain ⟨e, t, selected, stores, shape, empty⟩ := exists_stores stmt columns [] (by simp)
    have answered : ¬ ErrSent (executeSelect stmt) e := by
      rw [errSent_select_iff stores, selected, shape, empty]
      exact not_not.mpr ⟨by decide, known, by simp⟩
    have supported : ¬ Unsupported stmt columns := fun unsupported =>
      answered (ignores.rejects unsupported e t stores shape)
    obtain ⟨row, wide, undecided⟩ := exists_undecided supported unreadable
    obtain ⟨e', t', selected', stores', shape', single⟩ := exists_stores stmt columns [row] (by simpa)
    apply answered
    apply (ignores.same e e' t t' (selected.trans selected'.symm) stores stores' shape shape').mpr
    rw [errSent_select_iff stores', shape', single]
    exact fun fine => undecided (fine.2.2 row List.mem_cons_self)
  · exact ignoresRows_of

/-- `SELECT * FROM t WHERE x = 1`. -/
def selectUnknown : SelectStatement where
  columns := [.identifier (ascii "*")]
  tableName := ascii "t"
  whereClause := some (.binary (.identifier (ascii "x")) (ascii "=") (.numberLiteral (ascii "1")))

/-- The table has no column `x`: an empty table is answered with its columns, a table with a row by
an ERR packet. -/
theorem unknown_column_accepted : ¬ ∀ (stmt : SelectStatement) (e e' : Exec) (t t' : Table),
    Reached e.storage → Reached e'.storage →
    e.session.currentDatabase = e'.session.currentDatabase → Stores e stmt t → Stores e' stmt t' →
    t.columns = t'.columns → (ErrSent (executeSelect stmt) e ↔ ErrSent (executeSelect stmt) e') := by
  intro all
  let session : Session := { connectionId := 1, currentDatabase := ascii "test" }
  let t := newTable (oneColumn (ascii "INT"))
  have inserted : Reached (insertedStorage (ascii "INT")) :=
    ⟨[.createTable (oneColumn (ascii "INT")) (ascii "test"), .insert insertFive (ascii "test")],
      .cons rfl (.cons rfl (.nil _))⟩
  have stores : Stores ⟨session, oneColumnStorage (ascii "INT"), []⟩ selectUnknown t :=
    ⟨rfl, by decide⟩
  have stores' : Stores ⟨session, insertedStorage (ascii "INT"), []⟩ selectUnknown
      { t with rows := [[.int 5]] } := ⟨rfl, by decide⟩
  have same := all selectUnknown ⟨session, oneColumnStorage (ascii "INT"), []⟩
    ⟨session, insertedStorage (ascii "INT"), []⟩ t { t with rows := [[.int 5]] }
    (oneColumnStorage_reached _) inserted rfl stores stores' rfl
  rw [errSent_select_iff stores, errSent_select_iff stores'] at same
  have undecided : ¬ WhereDecides selectUnknown t.columns [.int 5] := by
    rintro ⟨b, decided⟩
    cases decided
  have refused := same.mpr fun answered => undecided (answered.2.2 _ List.mem_cons_self)
  exact refused ⟨by decide, .inl rfl, fun row member => absurd member List.not_mem_nil⟩

end TinySql
