import Mathlib.Tactic.Ring
import TinySql.Command.InsertedRow
import TinySql.Storage.IntegerComparison

/-!
# AUTO_INCREMENT

A table counts the values that it hands out and nothing else: a value that a statement gives does
not move the counter, and a counter that has left the range of an `int` is cut down to one.
-/

namespace TinySql
open Run StorageEngine

def Table.held (i : Nat) (t : Table) : List Int :=
  t.rows.filterMap fun row => row[i]?.bind Value.integer?

/-! ## The counter -/

def IsInt (n : Int) : Prop := -2 ^ 31 ≤ n ∧ n < 2 ^ 31

instance (n : Int) : Decidable (IsInt n) := inferInstanceAs (Decidable (_ ∧ _))

def CountsWithin (next : Int) (srcs : List Source) : Prop :=
  ∀ k < generations srcs, IsInt (next + k)

instance (next : Int) (srcs : List Source) : Decidable (CountsWithin next srcs) :=
  inferInstanceAs (Decidable (∀ k < _, _))

theorem toInt_toInt32 {next : Int64} (fits : IsInt next.toInt) :
    next.toInt32.toInt = next.toInt := by
  obtain ⟨low, high⟩ := fits
  rw [Int64.toInt_toInt32]
  apply Int.bmod_eq_of_le <;> omega

theorem toInt_succ {next : Int64} (fits : IsInt next.toInt) :
    (next + 1).toInt = next.toInt + 1 := by
  obtain ⟨low, high⟩ := fits
  have one : (1 : Int64).toInt = 1 := by decide
  rw [Int64.toInt_add, one]
  apply Int.bmod_eq_of_le <;> omega

theorem CountsWithin.tail {next : Int64} {source : Source} {rest : List Source}
    (within : CountsWithin next.toInt (source :: rest)) :
    CountsWithin (source.after next).toInt rest ∧ (source.after next).toInt =
      next.toInt + if source.isGenerated then 1 else 0 := by
  rw [CountsWithin, generations_cons] at within
  cases kind : source.isGenerated with
  | false =>
      simp only [kind, Bool.false_eq_true, if_false, Nat.add_zero] at within
      simp only [Source.after, kind, Bool.false_eq_true, if_false, Int.add_zero, and_true]
      exact within
  | true =>
      simp only [kind, if_true] at within
      have first : IsInt next.toInt := by simpa using within 0 (Nat.succ_pos _)
      simp only [Source.after, kind, if_true, toInt_succ first, and_true]
      intro k below
      have shifted := within (k + 1) (Nat.succ_lt_succ below)
      rwa [Int.natCast_succ, ← Int.add_assoc, Int.add_right_comm] at shifted

theorem toInt_counter {next : Int64} {srcs : List Source} (within : CountsWithin next.toInt srcs) :
    (counter next srcs).toInt = next.toInt + generations srcs := by
  induction srcs generalizing next with
  | nil => simp [counter, generations]
  | cons source rest ih =>
      obtain ⟨later, after⟩ := within.tail
      have counted := ih later
      rw [counter, List.foldl_cons, ← counter, counted, after, generations_cons]
      push_cast
      ring

theorem generated_cell {next : Int64} {srcs : List Source} {columns : List ColumnDef} {i : Nat}
    (within : CountsWithin next.toInt srcs) (inside : i < columns.length)
    (generated : srcs[i]? = some .generated) :
    (cells next (srcs.zip columns))[i]?.bind Value.integer? =
      some (next.toInt + generations (srcs.take i)) ∧ generations (srcs.take i) < generations srcs := by
  induction srcs generalizing next columns i with
  | nil => cases generated
  | cons source rest ih =>
      cases columns with
      | nil => cases inside
      | cons col columns =>
          obtain ⟨later, after⟩ := within.tail
          cases i with
          | zero =>
              obtain rfl : source = .generated := by simpa using generated
              have some : 0 < generations (.generated :: rest) := by
                rw [generations_cons]
                exact Nat.succ_pos _
              have first : IsInt next.toInt := by simpa using within 0 some
              refine ⟨?_, some⟩
              simp [cells, Source.value, Value.integer?, toInt_toInt32 first, generations]
          | succ i =>
              obtain ⟨cell, below⟩ := ih later (Nat.lt_of_succ_lt_succ inside) generated
              rw [List.take_succ_cons, generations_cons, generations_cons]
              refine ⟨?_, by omega⟩
              rw [List.zip_cons_cons, cells, List.getElem?_cons_succ, cell, after]
              push_cast
              ring_nf

/-! ## Runs of INSERTs into one table -/

def Table.behind (stmt : InsertStatement) (t : Table) : Table :=
  match sources stmt t.columns with
  | none => t
  | some srcs => if Refused srcs t.columns then t.counted srcs else t.inserted srcs

theorem Table.behind_of {stmt : InsertStatement} {t : Table} {srcs : List Source}
    (known : sources stmt t.columns = some srcs) :
    t.behind stmt = if Refused srcs t.columns then t.counted srcs else t.inserted srcs := by
  rw [Table.behind, known]

theorem executeInsert_behind {s : StorageEngine} {dbName : Bytes} {stmt : InsertStatement} {t : Table}
    (named : dbName ≠ []) (found : s.getTable dbName stmt.tableName = some t) :
    (Frame.final ((executeInsert stmt dbName).run s)).getTable dbName stmt.tableName =
      some (t.behind stmt) := by
  obtain ⟨db, here, there⟩ := Option.bind_eq_some_iff.mp found
  rw [executeInsert_spec named here there, Table.behind]
  cases sources stmt t.columns with
  | none => exact found
  | some srcs =>
      dsimp only
      split
      · exact getTable_setTable _ _ _ _ _
      · exact getTable_setTable _ _ _ _ _

def generates (i : Nat) (stmt : InsertStatement) (t : Table) : Option Int := do
  let srcs ← sources stmt t.columns
  if srcs[i]?.any Source.isGenerated then (t.rowOf srcs)[i]?.bind Value.integer? else none

def gives (i : Nat) (stmt : InsertStatement) (t : Table) : Option Int := do
  let srcs ← sources stmt t.columns
  if Refused srcs t.columns ∨ srcs[i]?.any Source.isGenerated then none
  else (t.rowOf srcs)[i]?.bind Value.integer?

/-- The storage, the integers that rows have got from statements, and those that have been
generated, in a column of a table. -/
structure Ledger where
  storage : StorageEngine
  given : List Int
  generated : List Int

namespace Ledger
variable (dbName tableName : Bytes) (i : Nat)

def table (h : Ledger) : Option Table := h.storage.getTable dbName tableName

def insert (stmt : InsertStatement) (h : Ledger) : Ledger where
  storage := Frame.final
    ((executeInsert { stmt with tableName := tableName } dbName).run h.storage)
  given := h.given ++ ((h.table dbName tableName).bind (gives i stmt)).toList
  generated := h.generated ++ ((h.table dbName tableName).bind (generates i stmt)).toList

def Step (h : Ledger) (stmt : InsertStatement) (h' : Ledger) : Prop :=
  h.insert dbName tableName i stmt = h'

/-- A generated value exceeds those that were generated before it, and no row holds it. -/
def Fresh (h : Ledger) (stmt : InsertStatement) : Prop :=
  ∀ t v, h.table dbName tableName = some t → generates i stmt t = some v →
    (∀ w ∈ h.generated, w < v) ∧ v ∉ t.held i

def Counts (h : Ledger) (stmt : InsertStatement) : Prop :=
  ∀ t ∈ h.table dbName tableName, ∀ srcs ∈ sources stmt t.columns,
    CountsWithin t.nextAutoIncrement.toInt srcs ∧
      (srcs[i]? = some .generated →
        t.nextAutoIncrement.toInt + generations (srcs.take i) ∉ h.given)

instance (h : Ledger) (stmt : InsertStatement) : Decidable (h.Counts dbName tableName i stmt) :=
  inferInstanceAs (Decidable (∀ t ∈ _, ∀ srcs ∈ _, _ ∧ (_ → _)))

/-- What has been generated is below the counter, and so is every integer that no statement gave. -/
structure Sound (h : Ledger) (t : Table) : Prop where
  found : h.table dbName tableName = some t
  below : ∀ v ∈ h.generated, v < t.nextAutoIncrement.toInt
  held : ∀ v ∈ t.held i, v ∈ h.given ∨ v < t.nextAutoIncrement.toInt

variable {dbName tableName i} {h : Ledger} {stmt : InsertStatement} {t : Table} {srcs : List Source}

theorem insert_given (found : h.table dbName tableName = some t) :
    (h.insert dbName tableName i stmt).given = h.given ++ (gives i stmt t).toList := by
  simp only [insert, found, Option.bind_some]

theorem insert_generated (found : h.table dbName tableName = some t) :
    (h.insert dbName tableName i stmt).generated = h.generated ++ (generates i stmt t).toList := by
  simp only [insert, found, Option.bind_some]

theorem any_isGenerated {source? : Option Source} :
    source?.any Source.isGenerated = true ↔ source? = some .generated := by
  cases source? with
  | none => exact iff_of_false Bool.false_ne_true nofun
  | some source => cases source <;> simp [Source.isGenerated]

theorem generates_iff (known : sources stmt t.columns = some srcs)
    (within : CountsWithin t.nextAutoIncrement.toInt srcs) {v : Int} : generates i stmt t = some v ↔
      srcs[i]? = some .generated ∧ t.nextAutoIncrement.toInt + generations (srcs.take i) = v := by
  by_cases at_ : srcs[i]? = some .generated
  · have inside : i < t.columns.length := by
      rw [← sources_length known]
      exact (List.getElem?_eq_some_iff.mp at_).1
    obtain ⟨cell, -⟩ := generated_cell within inside at_
    rw [← Table.rowOf] at cell
    simp [generates, known, Source.isGenerated, cell, at_]
  · simp [generates, known, any_isGenerated, at_]

theorem generations_take_lt (at_ : srcs[i]? = some .generated) :
    generations (srcs.take i) < generations srcs := by
  have split := List.take_append_drop i srcs
  have here : generations (srcs.drop i) ≠ 0 := by
    rw [generations, Ne, List.countP_eq_zero]
    intro none
    have member : Source.generated ∈ srcs.drop i :=
      List.mem_of_getElem? (i := 0) (by rw [List.getElem?_drop, Nat.add_zero, at_])
    exact none _ member rfl
  have count : generations srcs = generations (srcs.take i) + generations (srcs.drop i) := by
    rw [generations, generations, generations, ← List.countP_append, split]
  omega

theorem mem_held_inserted {v : Int} (member : v ∈ (t.inserted srcs).held i) :
    v ∈ t.held i ∨ (t.rowOf srcs)[i]?.bind Value.integer? = some v := by
  rw [Table.held, Table.inserted, List.filterMap_append, List.mem_append] at member
  apply member.imp id
  intro new
  obtain ⟨row, here, holds⟩ := List.mem_filterMap.mp new
  rwa [List.mem_singleton.mp here] at holds

theorem counter_behind (known : sources stmt t.columns = some srcs)
    (within : CountsWithin t.nextAutoIncrement.toInt srcs) :
    (t.behind stmt).nextAutoIncrement.toInt = t.nextAutoIncrement.toInt + generations srcs := by
  rw [← toInt_counter within, Table.behind_of known]
  split <;> rfl

theorem generates_lt (known : sources stmt t.columns = some srcs)
    (within : CountsWithin t.nextAutoIncrement.toInt srcs) {v : Int}
    (made : generates i stmt t = some v) :
    v < t.nextAutoIncrement.toInt + generations srcs := by
  obtain ⟨at_, rfl⟩ := (generates_iff known within).mp made
  have := generations_take_lt at_
  omega

theorem generates_or_gives (known : sources stmt t.columns = some srcs)
    (accepted : ¬ Refused srcs t.columns) {v : Int}
    (new : (t.rowOf srcs)[i]?.bind Value.integer? = some v) :
    generates i stmt t = some v ∨ gives i stmt t = some v := by
  by_cases at_ : srcs[i]? = some .generated
  · left
    simp [generates, known, any_isGenerated.mpr at_, new]
  · right
    simp [gives, known, accepted, any_isGenerated, at_, new]

theorem Sound.insert (sound : h.Sound dbName tableName i t) (named : dbName ≠ [])
    (counts : h.Counts dbName tableName i stmt) :
    (h.insert dbName tableName i stmt).Sound dbName tableName i (t.behind stmt) := by
  have found := @executeInsert_behind _ _ { stmt with tableName := tableName } _ named sound.found
  cases known : sources stmt t.columns with
  | none =>
      have same : t.behind stmt = t := by rw [Table.behind, known]
      have nothing : generates i stmt t = none := by simp [generates, known]
      constructor
      · exact found
      · rw [same, insert_generated sound.found, nothing]
        simpa using sound.below
      · rw [same]
        intro v member
        exact (sound.held v member).imp (List.mem_append_left _) id
  | some srcs =>
      obtain ⟨within, -⟩ := counts t sound.found srcs known
      constructor
      · exact found
      · intro v member
        rw [counter_behind known within]
        rw [insert_generated sound.found] at member
        rcases List.mem_append.mp member with old | new
        · have := sound.below v old
          omega
        · exact generates_lt known within (Option.mem_toList.mp new)
      · intro v member
        rw [counter_behind known within]
        have old (before : v ∈ t.held i) :
            v ∈ (h.insert dbName tableName i stmt).given ∨
              v < t.nextAutoIncrement.toInt + generations srcs := by
          apply (sound.held v before).imp
          · exact List.mem_append_left _
          · intro below
            omega
        rw [Table.behind_of known] at member
        by_cases refused : Refused srcs t.columns
        · rw [if_pos refused] at member
          exact old member
        · rw [if_neg refused] at member
          rcases mem_held_inserted member with before | new
          · exact old before
          · rcases generates_or_gives known refused new with made | given
            · exact .inr (generates_lt known within made)
            · rw [insert_given sound.found, given]
              simp

theorem Sound.fresh (sound : h.Sound dbName tableName i t)
    (counts : h.Counts dbName tableName i stmt) : h.Fresh dbName tableName i stmt := by
  intro t' v found made
  obtain rfl := Option.some.inj (sound.found.symm.trans found)
  cases known : sources stmt t.columns with
  | none => simp [generates, known] at made
  | some srcs =>
      obtain ⟨within, ungiven⟩ := counts t found srcs known
      obtain ⟨at_, rfl⟩ := (generates_iff known within).mp made
      constructor
      · intro w member
        have := sound.below w member
        omega
      · intro member
        rcases sound.held _ member with given | below
        · exact ungiven at_ given
        · omega

end Ledger

/-- The table with a ledger that is opened on it: whatever the column holds counts as given. -/
def StorageEngine.ledger (dbName tableName : Bytes) (i : Nat) (s : StorageEngine) : Ledger :=
  ⟨s, ((s.getTable dbName tableName).map (Table.held i)).getD [], []⟩

open Ledger in
/-- As long as the counter stays within the range of an `int` and comes upon no integer that a
statement gave, no generated value is held by a row that is there, and each exceeds those before
it. -/
theorem autoIncrement_fresh {s : StorageEngine} {dbName tableName : Bytes} {t : Table} {i : Nat}
    (named : dbName ≠ []) (found : s.getTable dbName tableName = some t)
    {run : List InsertStatement}
    (counts : Admits (Step dbName tableName i) (Counts dbName tableName i)
      (s.ledger dbName tableName i) run) :
    Admits (Step dbName tableName i) (Fresh dbName tableName i) (s.ledger dbName tableName i) run := by
  have keeps : ∀ (h : Ledger) stmt (h' : Ledger), (∃ t, h.Sound dbName tableName i t) →
      h.Counts dbName tableName i stmt → h.Step dbName tableName i stmt h' →
        ∃ t, h'.Sound dbName tableName i t := by
    rintro h stmt h' ⟨t, sound⟩ counts rfl
    exact ⟨_, sound.insert named counts⟩
  have fresh : ∀ (h : Ledger) stmt, (∃ t, h.Sound dbName tableName i t) →
      h.Counts dbName tableName i stmt → h.Fresh dbName tableName i stmt := by
    rintro h stmt ⟨t, sound⟩ counts
    exact sound.fresh counts
  apply Admits.of_invariant (fun h => ∃ t, h.Sound dbName tableName i t) keeps fresh ?_ counts
  refine ⟨t, found, nofun, ?_⟩
  intro v member
  left
  rw [StorageEngine.ledger, found]
  exact member

/-! ## A table with a generated key -/

def countedTable : CreateTableStatement where
  tableName := ascii "t"
  columns := [{ name := ascii "id", type := ascii "INT", autoIncrement := true },
    { name := ascii "age", type := ascii "INT" }]

def countedStorage : StorageEngine :=
  Frame.final ((executeCreateTable countedTable (ascii "test")).run initial)

def insertAge : InsertStatement := ⟨ascii "t", [ascii "age"], [.numberLiteral (ascii "7")]⟩

def insertId (id : Bytes) : InsertStatement := ⟨ascii "t", [ascii "id"], [.numberLiteral id]⟩

theorem countedStorage_table : ∃ t, countedStorage.getTable (ascii "test") (ascii "t") = some t ∧
    t.columns[0]? = some { name := ascii "id", type := .int, autoIncrement := true } := by
  have shape : (countedStorage.getTable (ascii "test") (ascii "t")).bind (·.columns[0]?) =
      some { name := ascii "id", type := .int, autoIncrement := true } := by decide +kernel
  exact Option.bind_eq_some_iff.mp shape

theorem autoIncrement_fresh_twice : Admits (Ledger.Step (ascii "test") (ascii "t") 0)
    (Ledger.Fresh (ascii "test") (ascii "t") 0)
    (countedStorage.ledger (ascii "test") (ascii "t") 0)
    [insertAge, insertId (ascii "5"), insertAge] := by
  obtain ⟨t, found, -⟩ := countedStorage_table
  apply autoIncrement_fresh (by decide) found
  rw [admits_cons]
  refine ⟨by decide +kernel, ?_⟩
  rintro h rfl
  rw [admits_cons]
  refine ⟨by decide +kernel, ?_⟩
  rintro h rfl
  rw [admits_cons]
  exact ⟨by decide +kernel, fun _ _ => admits_nil⟩

/-- The key 1 is given, and generated for the next row. -/
theorem key_generated_twice : ¬ ∀ (s : StorageEngine) (dbName tableName : Bytes) (t : Table) (i : Nat)
    (col : ColumnDef), dbName ≠ [] → s.getTable dbName tableName = some t →
      t.columns[i]? = some col → col.autoIncrement = true → col.type = .int ∨ col.type = .bigint →
      ∀ run, Admits (Ledger.Step dbName tableName i) (Ledger.Fresh dbName tableName i)
        (s.ledger dbName tableName i) run := by
  intro all
  obtain ⟨t, found, column⟩ := countedStorage_table
  have fresh := all countedStorage _ _ t 0 _ (by decide) found column rfl (.inl rfl)
    [insertId (ascii "1"), insertAge]
  rw [admits_cons] at fresh
  have second := (admits_cons.mp (fresh.2 _ rfl)).1
  generalize after : (countedStorage.ledger (ascii "test") (ascii "t") 0).insert (ascii "test")
    (ascii "t") 0 (insertId (ascii "1")) = h at second
  have shape : (h.table (ascii "test") (ascii "t")).map
      (fun t => (generates 0 insertAge t, t.held 0)) = some (some 1, [1]) := by
    rw [← after]
    decide +kernel
  obtain ⟨t', here, shape⟩ := Option.map_eq_some_iff.mp shape
  have differs := (second t' 1 here (Prod.mk.inj shape).1).2
  rw [(Prod.mk.inj shape).2] at differs
  exact differs List.mem_cons_self

end TinySql
