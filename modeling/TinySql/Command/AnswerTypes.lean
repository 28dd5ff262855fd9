import TinySql.Command.Journal
import TinySql.Protocol.PacketType

/-!
# The answer to a SELECT, type by type

What `identifyPacketType` makes of the packets that answer a SELECT, whatever the table holds.
-/

namespace TinySql
open Frame ResultSet StorageEngine Wire

theorem catalog_definitions {columns : List ColumnDef} {tableName dbName : Bytes} :
    ∀ p ∈ definitions columns tableName dbName, p.catalog = ascii "def" := by
  intro p member
  obtain ⟨col, -, rfl⟩ := List.mem_map.mp member
  rfl

/-- What the packets of the answer are taken for. -/
def Selection.types (a : Selection) : List PacketType :=
  PacketType.ofResultSet a.columns a.rows

namespace System
variable {s s' : System} {i : Nat} {stmt : SelectStatement} {response : Bytes} {t : Table}
  {a : Selection} {b : Buffer}

/-- Whoever asks for the types of the packets of an answer finds the end of the definitions and of
the rows where they are, and no error; but a row that begins with an empty text is taken for an OK
packet, with a text of three bytes for a query and with one of ten for a greeting. -/
theorem select_identified (reached : Reached s.storage)
    (answered : Answers s ((i, .select stmt), response) s')
    (found : s.storage.getTable (s.sessions i).currentDatabase stmt.tableName = some t)
    (counts : Countable stmt t)
    (asked : selection stmt (s.sessions i).currentDatabase t = some a) (some : a.columns ≠ [])
    (fits : a.Deliverable) (noErr : response[4]? ≠ Option.some 0xFF) (holds : b.readable = response) :
    Identified b a.types ∧ .ERR ∉ a.types ∧
      ∀ k, a.types[k]? = Option.some .EOF_PKT ↔
        k = a.columns.length + 1 ∨ k = a.columns.length + a.rows.length + 2 := by
  refine ⟨?_, PacketType.ofResultSet_noErr _ _, PacketType.ofResultSet_eof _ _⟩
  obtain ⟨e, ran, events, -⟩ := answered
  rw [execute_select_run] at ran
  have widths : ∀ row ∈ t.rows, row.length = t.columns.length :=
    fun row member => (reached.allAdmissible _ _ t found row member).1
  obtain ⟨a', asked', -, wide, sent⟩ := @executeSelect_sent_selection stmt (s.exec i) e t response found
    widths counts ran events noErr
  obtain rfl := Option.some.inj (asked.symm.trans asked')
  rw [sent] at holds
  obtain ⟨positions, -, rfl⟩ := Option.map_eq_some_iff.mp asked
  refine identified_resultSet catalog_definitions ?_ fits rfl holds
  rintro row member rfl
  exact some (List.length_eq_zero_iff.mp (wide [] member).symm)

/-! ## An empty text -/

def insertEmpty : InsertStatement where
  tableName := ascii "t"
  columns := []
  values := [.stringLiteral []]

def emptyTextRun : List Change :=
  [.createTable (oneColumn (ascii "VARCHAR")) (ascii "test"), .insert insertEmpty (ascii "test")]

def emptyTextSystem : System where
  sessions := fun _ => { connectionId := 1, state := .authenticated, currentDatabase := ascii "test" }
  storage := emptyTextRun.foldl (fun s c => final (c.body.run s)) initial

theorem emptyTextSystem_reached : Reached emptyTextSystem.storage :=
  ⟨emptyTextRun, .cons rfl (.cons rfl (.nil _))⟩

/-- The only row of the table is taken for an OK packet. -/
theorem emptyTextSystem_identified : ∃ response s',
    Answers emptyTextSystem ((0, .select (Parser.starStatement (ascii "t") (-1))), response) s' ∧
      ∀ b : Buffer, b.readable = response → Identified b [.UNKNOWN, .QUERY, .EOF_PKT, .OK, .EOF_PKT] := by
  let t : Table := { newTable (oneColumn (ascii "VARCHAR")) with rows := [[.string []]] }
  have found : emptyTextSystem.storage.getTable (ascii "test") (ascii "t") = some t := rfl
  have selected : (∃ result, (selectRows (Parser.starStatement (ascii "t") (-1)) (ascii "test")).run
      emptyTextSystem.storage = .ok result emptyTextSystem.storage) :=
    (selectRows_ok_iff found).mpr ⟨by decide, .inl rfl, fun _ _ => ⟨true, rfl⟩⟩
  obtain ⟨result, ends⟩ := selected
  obtain ⟨e, response, ran, events, shown⟩ := executeSelect_sends (e := emptyTextSystem.exec 0) ends
    (selectRows_inside emptyTextSystem_reached.allAdmissible ends)
  have answered : Answers emptyTextSystem ((0, .select (Parser.starStatement (ascii "t") (-1))),
      response) (emptyTextSystem.after 0 e) := ⟨e, (execute_select_run _ _).trans ran, events, rfl⟩
  refine ⟨response, _, answered, fun b holds => ?_⟩
  have asked : selection (Parser.starStatement (ascii "t") (-1)) (ascii "test") t =
      some ⟨definitions t.columns (ascii "t") (ascii "test"), [[.string []]]⟩ := rfl
  have noErr : response[4]? ≠ some 0xFF := by
    rw [shown]
    exact sentPayloads_first _ _ _ _
  exact (select_identified emptyTextSystem_reached answered found ⟨by decide, by decide, by decide⟩
    asked (by decide) (by unfold Selection.Deliverable; decide +kernel) noErr holds).1

end System

end TinySql
