import TinySql.Command.Journal

/-!
# Reading again

As long as nobody drops a table, its records only grow at the end. So a SELECT that is sent again,
by whatever session, is answered with the rows of the first answer and perhaps more behind them.
-/

namespace TinySql
open Frame ResultSet Run StorageEngine

/-- The one record comes from the other by more rows at the end. -/
structure Record.Extends (r r' : Record) : Prop where
  schema : r'.schema = r.schema
  rows : r.rows <+: r'.rows

theorem Record.Extends.refl (r : Record) : r.Extends r := ⟨rfl, List.prefix_rfl⟩

theorem Record.Extends.trans {r r' r'' : Record} (first : r.Extends r') (second : r'.Extends r'') :
    r.Extends r'' :=
  ⟨second.schema.trans first.schema, first.rows.trans second.rows⟩

theorem Record.extends_inserted (r : Record) (stmt : InsertStatement) (ok : Bool) :
    r.Extends (r.inserted stmt ok) := by
  unfold Record.inserted
  split
  · exact .refl r
  · refine ⟨rfl, ?_⟩
    cases ok with
    | true => exact List.prefix_append _ _
    | false => exact List.prefix_rfl

namespace Journal

/-- The exchange drops this table. -/
def Drops (j : Journal) (d n : Bytes) (x : Exchange) : Prop :=
  ∃ i response, x = ((i, .dropTable n), response) ∧ j.current i = d ∧ answeredOk response = true

/-- Every response of the run is the one that the journal accounts for. -/
def Explained (j : Journal) (run : List Exchange) : Prop :=
  ∀ done x rest, run = done ++ x :: rest → System.Explains (j.after done) x

def Untouched (j : Journal) (d n : Bytes) (run : List Exchange) : Prop :=
  ∀ done x rest, run = done ++ x :: rest → ¬ (j.after done).Drops d n x

variable {j : Journal} {d n : Bytes} {r : Record} {x : Exchange} {run : List Exchange}

theorem after_append (j : Journal) (first second : List Exchange) :
    j.after (first ++ second) = (j.after first).after second := List.foldl_append

theorem records_enter_other {d' n' : Bytes} {f : Option Record → Option Record}
    (other : ¬ (d = d' ∧ n = n')) : (j.enter d' n' f).records d n = j.records d n := by
  rw [enter]
  dsimp only
  rw [if_neg other]

theorem records_enter_self {f : Option Record → Option Record} :
    (j.enter d n f).records d n = f (j.records d n) := by
  simp [enter]

theorem extends_note (explains : System.Explains j x) (stays : ¬ j.Drops d n x)
    (here : j.records d n = some r) : ∃ r', (j.note x).records d n = some r' ∧ r.Extends r' := by
  have same {j' : Journal} (unchanged : j'.records d n = j.records d n) :
      ∃ r', j'.records d n = some r' ∧ r.Extends r' := ⟨r, unchanged.trans here, .refl r⟩
  obtain ⟨⟨i, stmt⟩, response⟩ := x
  cases stmt with
  | createTable stmt =>
      apply same
      by_cases this : d = j.current i ∧ n = stmt.tableName
      · obtain ⟨rfl, rfl⟩ := this
        have taken : ¬ answeredOk response = true := fun ok => by
          rw [(explains.mp ok).2] at here
          cases here
        simp [note, records_enter_self, taken]
      · exact records_enter_other this
  | dropTable tableName =>
      apply same
      by_cases this : d = j.current i ∧ n = tableName
      · obtain ⟨rfl, rfl⟩ := this
        have refused : ¬ answeredOk response = true := fun ok => stays ⟨i, response, rfl, rfl, ok⟩
        simp [note, records_enter_self, refused]
      · exact records_enter_other this
  | insert stmt =>
      by_cases this : d = j.current i ∧ n = stmt.tableName
      · obtain ⟨rfl, rfl⟩ := this
        refine ⟨r.inserted stmt (answeredOk response), ?_, r.extends_inserted stmt _⟩
        simp [note, records_enter_self, here]
      · exact same (records_enter_other this)
  | _ => exact same rfl

theorem extends_after (explained : j.Explained run) (untouched : j.Untouched d n run)
    (here : j.records d n = some r) : ∃ r', (j.after run).records d n = some r' ∧ r.Extends r' := by
  induction run generalizing j r with
  | nil => exact ⟨r, here, .refl r⟩
  | cons x rest ih =>
      obtain ⟨r', here', first⟩ :=
        extends_note (explained [] x rest rfl) (untouched [] x rest rfl) here
      obtain ⟨r'', there, later⟩ := ih (j := j.note x)
        (fun done y more split => explained (x :: done) y more (by rw [split]; rfl))
        (fun done y more split => untouched (x :: done) y more (by rw [split]; rfl)) here'
      exact ⟨r'', there, first.trans later⟩

end Journal

/-! ## Selections -/

section Selection
variable {r r' : Record} {stmt : SelectStatement} {dbName : Bytes}

theorem selectedRows_longer {t t' : Table} (columns : t'.columns = t.columns)
    (rows : t.rows <+: t'.rows) : selectedRows stmt t <+: selectedRows stmt t' := by
  have matching := rows.filter (satisfies stmt.whereClause t.columns)
  have remaining := matching.drop stmt.offset.toInt.toNat
  unfold selectedRows
  rw [columns]
  split
  · exact remaining
  · exact remaining.take _

theorem Record.Extends.columns (longer : r.Extends r') : r'.table.columns = r.table.columns := by
  simp [Record.table, longer.schema]

theorem Record.Extends.fieldPositions (longer : r.Extends r') (exprs : List Expression) :
    fieldPositions r'.table exprs = fieldPositions r.table exprs := by
  have field : fieldPosition r'.table = fieldPosition r.table := by
    funext expr
    cases expr <;> simp [fieldPosition, Table.getColumnIndex, Record.table, longer.schema]
  rw [TinySql.fieldPositions, longer.columns, field]
  rfl

theorem Record.Extends.selection (longer : r.Extends r') {a : Selection}
    (here : selection stmt dbName r.table = some a) :
    ∃ a', TinySql.selection stmt dbName r'.table = some a' ∧ a'.columns = a.columns ∧
      a.rows <+: a'.rows := by
  obtain ⟨positions, fields, rfl⟩ := Option.map_eq_some_iff.mp here
  refine ⟨_, Option.map_eq_some_iff.mpr ⟨positions, ?_, rfl⟩, ?_, ?_⟩
  · rw [longer.fieldPositions, fields]
  · simp [columnsAt, longer.columns]
  · exact (selectedRows_longer longer.columns longer.rows).map _

theorem Selection.Deliverable.of_longer {a a' : Selection} (fits : a'.Deliverable)
    (columns : a'.columns = a.columns) (rows : a.rows <+: a'.rows) : a.Deliverable := by
  intro payload member
  apply fits
  have sublist := rows.sublist.map rowPayload
  simp only [payloads, columns, List.mem_cons, List.mem_append] at member ⊢
  exact member.imp_right (·.imp_right (·.imp_right (·.imp_left fun row => sublist.subset row)))

end Selection

namespace System

section Explained
variable {j : Journal} {i : Nat} {stmt : SelectStatement} {response : Bytes}

theorem Explains.record (explained : Explains j ((i, .select stmt), response))
    (ok : response[4]? ≠ some 0xFF) : ∃ r, j.records (j.current i) stmt.tableName = some r := by
  cases here : j.records (j.current i) stmt.tableName with
  | some r => exact ⟨r, rfl⟩
  | none =>
      simp only [Explains] at explained
      rw [here] at explained
      exact absurd explained ok

theorem Explains.selectsFrom {r : Record} (explained : Explains j ((i, .select stmt), response))
    (here : j.records (j.current i) stmt.tableName = some r) :
    SelectsFrom stmt (j.current i) (some r.table) response := by
  simp only [Explains] at explained
  rwa [here] at explained

end Explained

/-- A SELECT that is sent again while nobody has dropped its table is answered with the columns and
the rows of the first answer and perhaps further rows behind them. -/
theorem repeated_select (sessions : Nat → Session) (commands : List (Nat × Statement)) :
    ∃ run s', run.map Prod.fst = commands ∧ Runs Answers ⟨sessions, initial⟩ run s' ∧
      ∀ before i i' stmt response response' between rest,
        run = before ++ ((i, .select stmt), response) ::
          (between ++ ((i', .select stmt), response') :: rest) →
        let j := (Journal.start sessions).after before
        let j' := j.after between
        j'.current i' = j.current i → j.Untouched (j.current i) stmt.tableName between →
        response[4]? ≠ some 0xFF → response'[4]? ≠ some 0xFF →
        (∀ r ∈ j'.records (j.current i) stmt.tableName, Countable stmt r.table ∧
          ∀ a ∈ selection stmt (j.current i) r.table, a.Deliverable) →
        ∃ rs rs', decode response = some rs ∧ decode response' = some rs' ∧
          rs'.columns = rs.columns ∧ rs.rows <+: rs'.rows := by
  obtain ⟨run, s', same, runs, -, explained⟩ := (kept_start sessions).conversation commands
  refine ⟨run, s', same, runs, ?_⟩
  intro before i i' stmt response response' between rest split j j' current untouched ok ok' fits
  have first := explained before _ _ split
  have second := explained (before ++ ((i, .select stmt), response) :: between) _ rest
    (by rw [split, List.append_assoc, List.cons_append])
  have middle : j.Explained between := fun done x later inside => by
    have here := explained (before ++ ((i, .select stmt), response) :: done) x
      (later ++ ((i', .select stmt), response') :: rest) (by rw [split, inside]; simp)
    rwa [Journal.after_append] at here
  rw [Journal.after_append] at second
  obtain ⟨r, here⟩ := first.record ok
  obtain ⟨r', there, longer⟩ := Journal.extends_after middle untouched here
  obtain ⟨counts, deliverable⟩ := fits r' there
  have firstFrom := first.selectsFrom here
  have second : Explains j' ((i', .select stmt), response') := second
  have secondFrom := second.selectsFrom (current ▸ there)
  rw [current] at secondFrom
  obtain ⟨a, asked, -, decoded⟩ := firstFrom.2 ok
    ⟨counts.offset, counts.fields, longer.columns ▸ counts.columns⟩
  obtain ⟨a', asked', -, decoded'⟩ := secondFrom.2 ok' counts
  obtain ⟨a'', again, columns, rows⟩ := longer.selection asked
  obtain rfl := Option.some.inj (asked'.symm.trans again)
  have fits' := deliverable a' asked'
  refine ⟨_, _, decoded (fits'.of_longer columns rows), decoded' fits', columns, rows.map _⟩

/-! ## A conversation

There is only one answer to a statement, so that what is said in a conversation can be computed. -/

def answerTo (s : System) (command : Nat × Statement) : Exec :=
  final ((execute command.2).run (s.exec command.1))

def responseTo (s : System) (command : Nat × Statement) : Bytes :=
  match (s.answerTo command).events with
  | .respond response :: _ => response
  | _ => []

def exchanges (s : System) : List (Nat × Statement) → List Exchange
  | [] => []
  | command :: rest =>
      (command, s.responseTo command) :: exchanges (s.after command.1 (s.answerTo command)) rest

theorem run_eq_exchanges {s s' : System} {run : List Exchange} (runs : Runs Answers s run s') :
    run = s.exchanges (run.map Prod.fst) := by
  induction runs with
  | nil s => rfl
  | @cons s s' s'' x rest answers _ ih =>
      obtain ⟨e, ran, events, rfl⟩ := answers
      have answer : s.answerTo x.1 = e := by rw [answerTo, ran, final]
      have response : s.responseTo x.1 = x.2 := by rw [responseTo, answer, events]
      rw [List.map_cons, exchanges, answer, response, ← ih]

def readTwice : List (Nat × Statement) :=
  [(0, .createTable { tableName := ascii "t", columns := [{ name := ascii "c", type := ascii "INT" }] }),
    (0, .insert { tableName := ascii "t", values := [.numberLiteral (ascii "1")] }),
    (0, .select (Parser.starStatement (ascii "t") (-1))),
    (1, .insert { tableName := ascii "t", values := [.numberLiteral (ascii "2")] }),
    (1, .select (Parser.starStatement (ascii "t") (-1)))]

def newSessions (_ : Nat) : Session :=
  { connectionId := 1, state := .authenticated, currentDatabase := ascii "test" }

/-- One session reads the table, and the other one after it has inserted a row. -/
theorem readTwice_repeated : ∃ run s', run.map Prod.fst = readTwice ∧
    Runs Answers ⟨newSessions, initial⟩ run s' ∧ ∃ response response' rs rs',
      (run[2]?).map Prod.snd = some response ∧ (run[4]?).map Prod.snd = some response' ∧
      decode response = some rs ∧ decode response' = some rs' ∧
      rs'.columns = rs.columns ∧ rs.rows <+: rs'.rows := by
  obtain ⟨run, s', same, runs, reads⟩ := repeated_select newSessions readTwice
  have said := run_eq_exchanges runs
  rw [same] at said
  obtain ⟨r₀, r₁, r₂, r₃, r₄, rfl⟩ : ∃ r₀ r₁ r₂ r₃ r₄,
      run = readTwice.zip [r₀, r₁, r₂, r₃, r₄] := ⟨_, _, _, _, _, said⟩
  have answers : ((exchanges ⟨newSessions, initial⟩ readTwice).map (·.2[4]?)) =
      [some 0, some 0, some 1, some 0, some 1] := by decide +kernel
  have fits : ∀ r ∈ ((Journal.start newSessions).after
      ((exchanges ⟨newSessions, initial⟩ readTwice).take 4)).records (ascii "test") (ascii "t"),
      r.table.columns.length < 2 ^ 64 ∧
        ∀ a ∈ selection (Parser.starStatement (ascii "t") (-1)) (ascii "test") r.table,
          ∀ payload ∈ payloads a.columns a.rows resultSetEof.payload, payload.length < 2 ^ 24 := by
    decide +kernel
  rw [← said] at answers fits
  obtain ⟨-, -, first, -, second⟩ : r₀[4]? = some 0 ∧ r₁[4]? = some 0 ∧ r₂[4]? = some 1 ∧
      r₃[4]? = some 0 ∧ r₄[4]? = some 1 := by
    simpa [readTwice] using answers
  have untouched : ((Journal.start newSessions).after
      ((readTwice.zip [r₀, r₁, r₂, r₃, r₄]).take 2)).Untouched (ascii "test") (ascii "t")
      (((readTwice.zip [r₀, r₁, r₂, r₃, r₄]).drop 3).take 1) := by
    rintro done x rest split ⟨i, response, rfl, -⟩
    have member : ((i, Statement.dropTable (ascii "t")), response) ∈
        (((readTwice.zip [r₀, r₁, r₂, r₃, r₄]).drop 3).take 1) := by
      rw [split]
      exact List.mem_append_right _ List.mem_cons_self
    simp [readTwice] at member
  obtain ⟨rs, rs', decoded⟩ := reads ((readTwice.zip [r₀, r₁, r₂, r₃, r₄]).take 2) 0 1
    (Parser.starStatement (ascii "t") (-1)) r₂ r₄
    (((readTwice.zip [r₀, r₁, r₂, r₃, r₄]).drop 3).take 1) [] rfl rfl untouched
    (by rw [first]; decide) (by rw [second]; decide)
    fun r here => ⟨⟨by decide, by decide, (fits r here).1⟩, (fits r here).2⟩
  exact ⟨_, s', same, runs, r₂, r₄, rs, rs', rfl, rfl, decoded⟩

end System

end TinySql
