import TinySql.Command.TableIntegrity

/-!
# The row of an INSERT

Each cell has a source: an expression of the statement, the counter of the table, or the default of
its column. The sources decide what is stored, what is refused and how far the counter moves.
-/

namespace TinySql
open StorageEngine

/-- Where the cell of a column comes from. -/
inductive Source where
  | given (expr : Expression)
  | generated
  | default (value : Value)
  deriving DecidableEq

namespace Source

def value (type : DataType) (next : Int64) : Source → Value
  | given expr => expressionToValue expr type
  | generated => .int next.toInt32
  | default value => value

def isGenerated (source : Source) : Bool := source matches generated

def after (next : Int64) (source : Source) : Int64 := if source.isGenerated then next + 1 else next

def isNull : Source → Bool
  | given (.identifier _) | given (.binary _ _ _) => true
  | given (.numberLiteral _) | given (.stringLiteral _) | generated => false
  | default value => value.isNull

theorem value_isNull (source : Source) (type : DataType) (next : Int64) :
    (source.value type next).isNull = source.isNull := by
  have text {α : Type} (valStr : Bytes) (make : α → Value) (made : ∀ a, (make a).isNull = false)
      (r : Except Exn α) : (orText valStr make r).isNull = false := by
    cases r with
    | ok a => exact made a
    | error e => rfl
  cases source with
  | given expr =>
      cases expr with
      | numberLiteral valStr => cases type <;> first | rfl | exact text _ _ (fun _ => rfl) _
      | _ => rfl
  | generated => rfl
  | default value => rfl

end Source

def sourceOf (given : List (Bytes × Expression)) (col : ColumnDef) : Source :=
  match given.find? (·.1 == col.name) with
  | some (_, expr) => .given expr
  | none => if col.autoIncrement then .generated else .default col.defaultValue

def sources (stmt : InsertStatement) (columns : List ColumnDef) : Option (List Source) :=
  if stmt.columns ≠ [] then
    if stmt.columns.length ≠ stmt.values.length then none
    else some (columns.map (sourceOf (stmt.columns.zip stmt.values)))
  else if stmt.values.length ≠ columns.length then none
  else some (stmt.values.map .given)

/-- The cells that sources yield from this value of the counter on. -/
def cells : Int64 → List (Source × ColumnDef) → Row
  | _, [] => []
  | next, (source, col) :: rest => source.value col.type next :: cells (source.after next) rest

/-- The counter that has been used for some of the cells. -/
def counter (next : Int64) (srcs : List Source) : Int64 := srcs.foldl Source.after next

def generations (srcs : List Source) : Nat := srcs.countP Source.isGenerated

def Table.counted (srcs : List Source) (t : Table) : Table :=
  { t with nextAutoIncrement := counter t.nextAutoIncrement srcs }

def Table.rowOf (srcs : List Source) (t : Table) : Row :=
  cells t.nextAutoIncrement (srcs.zip t.columns)

section Cells
variable {stmt : InsertStatement} {t : Table} {srcs : List Source}

theorem sources_length {columns : List ColumnDef} (known : sources stmt columns = some srcs) :
    srcs.length = columns.length := by
  unfold sources at known
  split_ifs at known with named counts counts
  · obtain rfl := Option.some.inj known
    exact List.length_map _
  · obtain rfl := Option.some.inj known
    rw [List.length_map, not_ne_iff.mp counts]

theorem length_cells (next : Int64) (pairs : List (Source × ColumnDef)) :
    (cells next pairs).length = pairs.length := by
  induction pairs generalizing next with
  | nil => rfl
  | cons pair rest ih =>
      rw [cells, List.length_cons, List.length_cons, ih]

theorem length_rowOf (known : sources stmt t.columns = some srcs) :
    (t.rowOf srcs).length = t.columns.length := by
  rw [Table.rowOf, length_cells, List.length_zip, sources_length known, Nat.min_self]

theorem generations_cons (source : Source) (rest : List Source) : generations (source :: rest) =
    generations rest + if source.isGenerated then 1 else 0 := List.countP_cons

theorem counter_eq (next : Int64) (srcs : List Source) :
    counter next srcs = next + Int64.ofNat (generations srcs) := by
  induction srcs generalizing next with
  | nil => simp [counter, generations]
  | cons source rest ih =>
      rw [counter, List.foldl_cons, ← counter, ih, generations_cons]
      cases kind : source.isGenerated with
      | false => simp [Source.after, kind]
      | true =>
          simp only [Source.after, kind, if_true, Int64.ofNat_add]
          rw [Int64.add_assoc, Int64.add_comm 1]
          rfl

theorem counter_eq_self_iff (next : Int64) (srcs : List Source) :
    counter next srcs = next ↔ 2 ^ 64 ∣ generations srcs := by
  rw [counter_eq, Int64.add_eq_left, Nat.dvd_iff_mod_eq_zero]
  constructor
  · intro zero
    have bits := congrArg (fun n : Int64 => n.toBitVec.toNat) zero
    simpa using bits
  · intro multiple
    apply Int64.toBitVec_inj.mp
    apply BitVec.eq_of_toNat_eq
    simpa using multiple

theorem namedRow_eq (given : List (Bytes × Expression)) (cols : List ColumnDef) (t : Table) :
    namedRow given cols t =
      (cells t.nextAutoIncrement ((cols.map (sourceOf given)).zip cols),
        t.counted (cols.map (sourceOf given))) := by
  induction cols generalizing t with
  | nil => rfl
  | cons col rest ih =>
      have first : namedCell given col t =
          ((sourceOf given col).value col.type t.nextAutoIncrement,
            { t with nextAutoIncrement := (sourceOf given col).after t.nextAutoIncrement }) := by
        unfold namedCell sourceOf
        cases given.find? (·.1 == col.name) with
        | some pair => rfl
        | none => cases col.autoIncrement <;> rfl
      rw [namedRow, first]
      dsimp only
      rw [ih]
      rfl

theorem cells_given (next : Int64) (exprs : List Expression) (cols : List ColumnDef) :
    cells next ((exprs.map .given).zip cols) =
      List.zipWith (fun expr col => expressionToValue expr col.type) exprs cols := by
  induction exprs generalizing cols with
  | nil => rfl
  | cons expr rest ih =>
      cases cols with
      | nil => rfl
      | cons col cols =>
          rw [List.map_cons, List.zip_cons_cons, List.zipWith_cons_cons, cells]
          exact congrArg _ (ih cols)

theorem counter_given (next : Int64) (exprs : List Expression) :
    counter next (exprs.map .given) = next := by
  induction exprs with
  | nil => rfl
  | cons expr rest ih => exact ih

theorem buildRow_eq (stmt : InsertStatement) (t : Table) : buildRow stmt t =
    match sources stmt t.columns with
    | none => .error columnCountMismatch
    | some srcs => .ok (t.rowOf srcs, t.counted srcs) := by
  unfold buildRow sources
  split_ifs with named counts counts
  · rfl
  · rw [namedRow_eq]
    rfl
  · rfl
  · simp only [Table.rowOf, Table.counted, cells_given, counter_given]

end Cells

/-! ## NULL -/

/-- Some NOT NULL column gets no value. -/
def Refused (srcs : List Source) (columns : List ColumnDef) : Prop :=
  ∃ pair ∈ srcs.zip columns, pair.2.notNull = true ∧ pair.1.isNull = true

instance (srcs : List Source) (columns : List ColumnDef) : Decidable (Refused srcs columns) :=
  inferInstanceAs (Decidable (∃ pair ∈ _, _))

theorem forall_cells_iff {P : Value → ColumnDef → Prop} {Q : Source → ColumnDef → Prop}
    (each : ∀ source col next, P (source.value col.type next) col ↔ Q source col) (next : Int64)
    (pairs : List (Source × ColumnDef)) :
    (∀ cell ∈ (cells next pairs).zip (pairs.map Prod.snd), P cell.1 cell.2) ↔
      ∀ pair ∈ pairs, Q pair.1 pair.2 := by
  induction pairs generalizing next with
  | nil => simp [cells]
  | cons pair rest ih =>
      rw [cells, List.map_cons, List.zip_cons_cons, List.forall_mem_cons, List.forall_mem_cons]
      apply and_congr
      · exact each pair.1 pair.2 next
      · exact ih _

theorem forall_rowOf_iff {P : Value → ColumnDef → Prop} {Q : Source → ColumnDef → Prop}
    (each : ∀ source col next, P (source.value col.type next) col ↔ Q source col)
    {stmt : InsertStatement} {t : Table} {srcs : List Source}
    (known : sources stmt t.columns = some srcs) :
    (∀ cell ∈ (t.rowOf srcs).zip t.columns, P cell.1 cell.2) ↔
      ∀ pair ∈ srcs.zip t.columns, Q pair.1 pair.2 := by
  have columns : (srcs.zip t.columns).map Prod.snd = t.columns :=
    List.map_snd_zip (sources_length known).ge
  have cells := forall_cells_iff each t.nextAutoIncrement (srcs.zip t.columns)
  rwa [columns] at cells

theorem admissible_rowOf {stmt : InsertStatement} {t : Table} {srcs : List Source}
    (known : sources stmt t.columns = some srcs) :
    Admissible t.columns (t.rowOf srcs) ↔ ¬ Refused srcs t.columns := by
  have null (v : Value) : v ≠ .null ↔ v.isNull = false := by cases v <;> simp [Value.isNull]
  have filled := forall_rowOf_iff (P := fun v col => col.notNull = true → v ≠ .null)
    (Q := fun source col => col.notNull = true → source.isNull = false)
    (fun source col next => by rw [null, Source.value_isNull]) known
  simp only [Admissible, length_rowOf known, true_and]
  rw [filled, Refused]
  simp

/-! ## What an INSERT does -/

def Table.inserted (srcs : List Source) (t : Table) : Table :=
  { t.counted srcs with rows := t.rows ++ [t.rowOf srcs] }

theorem executeInsert_spec {s : StorageEngine} {dbName : Bytes} {db : Database} {t : Table}
    {stmt : InsertStatement} (named : dbName ≠ []) (here : s.getDatabase dbName = some db)
    (there : db.getTable stmt.tableName = some t) : (executeInsert stmt dbName).run s =
      match sources stmt t.columns with
      | none => .error columnCountMismatch s
      | some srcs =>
          if Refused srcs t.columns then
            .error failedToInsert (s.setTable dbName db stmt.tableName (t.counted srcs))
          else .ok (okPacket 1 []) (s.setTable dbName db stmt.tableName (t.inserted srcs)) := by
  rw [executeInsert_run named here there, buildRow_eq]
  cases known : sources stmt t.columns with
  | none => rfl
  | some srcs =>
      have admits := admissible_rowOf known
      dsimp only
      cases stored : (t.counted srcs).insertRow (t.rowOf srcs) with
      | none =>
          have refused : ¬ Admissible t.columns (t.rowOf srcs) := fun admissible => by
            have stores := Table.insertRow_isSome.mpr (show
              Admissible (t.counted srcs).columns (t.rowOf srcs) from admissible)
            rw [stored] at stores
            cases stores
          rw [if_pos (by_contra fun free => refused (admits.mpr free))]
      | some t' =>
          obtain ⟨width, filled, rfl⟩ := Table.insertRow_eq_some.mp stored
          have free : ¬ Refused srcs t.columns := admits.mp ⟨width, filled⟩
          rw [if_neg free]
          rfl

end TinySql
