import TinySql.Command.InsertedRow

/-!
# The types of stored cells

A literal that the type of its column cannot take is stored as its text, a default always is, and a
generated value is an INT whatever its column says. `insertRow` looks at NULL only.
-/

namespace TinySql
open Run StorageEngine

def DataType.holds : DataType → Value → Bool
  | _, .null => true
  | .int, .int _ => true
  | .bigint, .bigint _ => true
  | .float, .float _ => true
  | .double, .double _ => true
  | .varchar, .string _ => true
  | .text, .string _ => true
  | .boolean, .bool _ => true
  | _, _ => false

def TypedRow (columns : List ColumnDef) (row : Row) : Prop :=
  ∀ cell ∈ row.zip columns, cell.2.type.holds cell.1 = true

def Table.Typed (t : Table) : Prop := ∀ row ∈ t.rows, TypedRow t.columns row

/-! ## Sources that suit a type -/

/-- The conversion of the type takes the text of a number. -/
def DataType.Takes (valStr : Bytes) : DataType → Prop
  | .int => (stoi valStr).isOk = true
  | .bigint => (stoll valStr).isOk = true
  | .float => (stof valStr).isOk = true
  | .double => (stod valStr).isOk = true
  | .varchar | .text => True
  | .boolean | .nullType => False

def Source.Suits (type : DataType) : Source → Prop
  | given (.numberLiteral valStr) => type.Takes valStr
  | given (.stringLiteral _) => type = .varchar ∨ type = .text
  | given (.identifier _) | given (.binary _ _ _) => True
  | generated => type = .int
  | default value => type.holds value = true

theorem holds_orText_iff {α : Type} {type : DataType} {make : α → Value} (valStr : Bytes)
    (made : ∀ a, type.holds (make a) = true) (text : type.holds (.string valStr) = false)
    (r : Except Exn α) : type.holds (orText valStr make r) = true ↔ r.isOk = true := by
  cases r with
  | ok a => exact iff_of_true (made a) rfl
  | error e =>
      apply iff_of_false
      · rw [orText, text]
        decide
      · exact Bool.false_ne_true

theorem holds_string_iff (type : DataType) (text : Bytes) :
    type.holds (.string text) = true ↔ type = .varchar ∨ type = .text := by
  cases type <;> simp [DataType.holds]

theorem holds_value_iff (source : Source) (type : DataType) (next : Int64) :
    type.holds (source.value type next) = true ↔ source.Suits type := by
  cases source with
  | given expr =>
      cases expr with
      | identifier name => cases type <;> exact iff_of_true rfl trivial
      | binary left op right => cases type <;> exact iff_of_true rfl trivial
      | stringLiteral text => exact holds_string_iff type text
      | numberLiteral valStr =>
          cases type with
          | int => exact holds_orText_iff valStr (fun _ => rfl) rfl _
          | bigint => exact holds_orText_iff valStr (fun _ => rfl) rfl _
          | float => exact holds_orText_iff valStr (fun _ => rfl) rfl _
          | double => exact holds_orText_iff valStr (fun _ => rfl) rfl _
          | varchar => exact iff_of_true rfl trivial
          | text => exact iff_of_true rfl trivial
          | boolean => exact iff_of_false Bool.false_ne_true id
          | nullType => exact iff_of_false Bool.false_ne_true id
  | generated => cases type <;> simp [Source.value, Source.Suits, DataType.holds]
  | default value => exact Iff.rfl

theorem typedRow_rowOf_iff {stmt : InsertStatement} {t : Table} {srcs : List Source}
    (known : sources stmt t.columns = some srcs) : TypedRow t.columns (t.rowOf srcs) ↔
      ∀ pair ∈ srcs.zip t.columns, pair.1.Suits pair.2.type :=
  forall_rowOf_iff (P := fun v col => col.type.holds v = true)
    (Q := fun source col => source.Suits col.type)
    (fun source col next => holds_value_iff source col.type next) known

/-! ## Steps -/

namespace Change

/-- An INSERT whose sources suit the types of their columns, or that is refused for a NULL. -/
def Fits (s : StorageEngine) : Change → Prop
  | .insert stmt dbName => dbName ≠ [] → ∀ t, s.getTable dbName stmt.tableName = some t →
      ∀ srcs, sources stmt t.columns = some srcs →
        Refused srcs t.columns ∨ ∀ pair ∈ srcs.zip t.columns, pair.1.Suits pair.2.type
  | .createTable _ _ | .dropTable _ _ => True

/-- An INSERT that would store a cell of another type is answered with ERR. -/
def Guarded (s : StorageEngine) : Change → Prop
  | .insert stmt dbName => ∀ t row t', s.getTable dbName stmt.tableName = some t →
      buildRow stmt t = .ok (row, t') → ¬ TypedRow t.columns row →
        ∃ e s', (executeInsert stmt dbName).run s = .error e s'
  | .createTable _ _ | .dropTable _ _ => True

variable {s s' : StorageEngine}

theorem Fits.guarded {c : Change} (fits : c.Fits s) : c.Guarded s := by
  cases c with
  | createTable stmt dbName => trivial
  | dropTable tableName dbName => trivial
  | insert stmt dbName =>
      intro t row t' found built untyped
      rcases executeInsert_cases stmt dbName s with ⟨db, table, named, here, there⟩ | ⟨-, e, -, stops⟩
      · have same : s.getTable dbName stmt.tableName = some table := by
          rw [getTable_of_getDatabase here, there]
        obtain rfl := Option.some.inj (same.symm.trans found)
        rw [executeInsert_spec named here there]
        rw [buildRow_eq] at built
        cases known : sources stmt table.columns with
        | none => exact ⟨_, _, rfl⟩
        | some srcs =>
            rw [known] at built
            obtain ⟨rfl, -⟩ := Prod.mk.inj (Except.ok.inj built)
            have refused : Refused srcs table.columns := by
              apply (fits named table found srcs known).resolve_right
              exact fun suits => untyped ((typedRow_rowOf_iff known).mpr suits)
            exact ⟨_, _, if_pos refused⟩
      · exact ⟨e, s, stops⟩

theorem Fits.keeps {c : Change} (fits : c.Fits s) (typed : s.Every Table.Typed)
    (step : Step s c s') : s'.Every Table.Typed := by
  obtain rfl := step
  cases c with
  | createTable stmt dbName =>
      apply every_createTable _ stmt dbName typed
      intro stmt row member
      rw [newTable_rows] at member
      cases member
  | dropTable tableName dbName => exact every_dropTable tableName dbName typed
  | insert stmt dbName =>
      rcases executeInsert_cases stmt dbName s with ⟨db, t, named, here, there⟩ | ⟨-, e, -, stops⟩
      · have found : s.getTable dbName stmt.tableName = some t := by
          rw [getTable_of_getDatabase here, there]
        have old : t.Typed := typed dbName stmt.tableName t found
        have ran := executeInsert_spec named here there
        change (Frame.final ((executeInsert stmt dbName).run s)).Every Table.Typed
        rw [ran]
        cases known : sources stmt t.columns with
        | none => exact typed
        | some srcs =>
            by_cases refused : Refused srcs t.columns
            · simp only [if_pos refused]
              exact typed.setTable here old
            · simp only [if_neg refused]
              apply typed.setTable here
              have suits := (fits named t found srcs known).resolve_left refused
              intro row member
              rcases List.mem_append.mp member with before | new
              · exact old row before
              · rw [List.mem_singleton.mp new]
                exact (typedRow_rowOf_iff known).mpr suits
      · change (Frame.final ((executeInsert stmt dbName).run s)).Every Table.Typed
        rw [stops]
        exact typed

theorem shows_untyped {c : Change} (misfit : ¬ c.Fits s) :
    ∃ s', Step s c s' ∧ ¬ s'.Every Table.Typed := by
  cases c with
  | createTable stmt dbName => exact absurd trivial misfit
  | dropTable tableName dbName => exact absurd trivial misfit
  | insert stmt dbName =>
      simp only [Fits, not_forall, not_or] at misfit
      obtain ⟨named, t, found, srcs, known, free, pair, member, unsuited⟩ := misfit
      refine ⟨_, rfl, fun typed => unsuited ?_⟩
      obtain ⟨db, here, there⟩ := Option.bind_eq_some_iff.mp found
      change (Frame.final ((executeInsert stmt dbName).run s)).Every Table.Typed at typed
      rw [executeInsert_spec named here there, known] at typed
      simp only [if_neg free] at typed
      have stored := typed dbName stmt.tableName _ (getTable_setTable _ _ _ _ _)
      have row : TypedRow t.columns (t.rowOf srcs) :=
        stored _ (List.mem_append_right _ List.mem_cons_self)
      exact (typedRow_rowOf_iff known).mp row pair member

end Change

/-- Every stored cell has the type of its column all along the run, and an INSERT that would break
this is answered with ERR. -/
def TypedThroughout (run : List Change) : Prop :=
  Always Change.Step (StorageEngine.Every Table.Typed) initial run ∧
    Admits Change.Step (fun s c => c.Guarded s) initial run

/-- Cells keep the types of their columns exactly as long as each INSERT fits. -/
theorem typedThroughout_iff (run : List Change) :
    TypedThroughout run ↔ Admits Change.Step (fun s c => c.Fits s) initial run := by
  have always : Always Change.Step (StorageEngine.Every Table.Typed) initial run ↔
      Admits Change.Step (fun s c => c.Fits s) initial run :=
    always_iff_admits (StorageEngine.Every Table.Typed) (fun _ typed => typed)
      (fun _ _ _ typed fits step => fits.keeps typed step)
      (fun _ _ _ misfit => Change.shows_untyped misfit) initial run every_initial
  constructor
  · exact fun typed => always.mp typed.1
  · exact fun fits => ⟨always.mpr fits, fits.mono fun _ _ here => here.guarded⟩

def stringIntoInt : List Change :=
  [.createTable ⟨ascii "t", [{ name := ascii "c", type := ascii "INT" }]⟩ (ascii "test"),
    .insert ⟨ascii "t", [], [.stringLiteral (ascii "x")]⟩ (ascii "test")]

theorem string_in_int_column : ¬ ∀ run, TypedThroughout run := by
  intro all
  have runs : Runs Change.Step initial stringIntoInt
      (stringIntoInt.foldl (fun s c => Frame.final (c.body.run s)) initial) :=
    .cons rfl (.cons rfl (.nil _))
  have typed := (all stringIntoInt).1 stringIntoInt _ (List.prefix_refl _) runs
  generalize after : stringIntoInt.foldl (fun s c => Frame.final (c.body.run s)) initial = s at typed
  have shape : (s.getTable (ascii "test") (ascii "t")).map (fun t => (t.columns, t.rows)) =
      some ([{ name := ascii "c", type := .int }], [[.string (ascii "x")]]) := by
    rw [← after]
    decide +kernel
  obtain ⟨t, found, shape⟩ := Option.map_eq_some_iff.mp shape
  have holds := typed _ _ t found
  rw [Table.Typed, (Prod.mk.inj shape).1, (Prod.mk.inj shape).2] at holds
  exact absurd (holds _ List.mem_cons_self _ List.mem_cons_self) (by decide)

end TinySql
