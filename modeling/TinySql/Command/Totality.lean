import TinySql.Command.PacketIsolation
import TinySql.Command.SelectAnswer
import TinySql.Command.TableIntegrity
import TinySql.Sql.QueryLaws

/-!
# Which commands throw

Executing a statement ends in a response: an ERR packet is caught, and the rows of a table that
statements have made are wide enough for its columns. What is left is the parser.
-/

namespace TinySql
open Frame MySQLCommand StorageEngine TinySql.Parser

theorem nextSequenceId_total : Total nextSequenceId :=
  total_get.bind fun _ => (total_modify _).bind fun _ => total_pure _

theorem encodeNext_total (encode : UInt8 → Buffer → Buffer) (response : Buffer) :
    Total (encodeNext encode response) :=
  nextSequenceId_total.bind fun _ => total_pure _

theorem sendResponse_total (response : Buffer) : Total (sendResponse response) := by
  unfold sendResponse
  split
  · exact total_modify _
  · exact total_pure ()

theorem responseCallback_total (response : Buffer) : Total (responseCallback response) :=
  (total_modify _).bind fun _ => sendResponse_total response

theorem onStorage_total {α : Type} (body : StatementM α) : Total (onStorage body) := by
  intro e
  cases ran : body.run e.storage with
  | ok a s => exact ⟨_, _, onStorage_ok ran⟩
  | error p s => exact ⟨_, _, onStorage_error ran⟩

theorem sendErr_total (p : ErrPacket) : Total (sendErr p) :=
  (encodeNext_total _ _).bind fun _ => (responseCallback_total _).bind fun _ => total_pure _

theorem sendOk_total (p : OkPacket) : Total (sendOk p) :=
  (encodeNext_total _ _).bind fun _ => (responseCallback_total _).bind fun _ => total_pure _

theorem answer_total (body : StatementM OkPacket) : Total (answer body) := by
  apply (onStorage_total body).bind
  intro result
  cases result with
  | ok p => exact sendOk_total p
  | error p => exact sendErr_total p

/-! ## SELECT -/

theorem encodeResultSet_total {result : SelectResult}
    (inside : ∀ row ∈ result.rows, ∀ i ∈ result.indices, i < row.length)
    (tableName dbName : Bytes) : Total (encodeResultSet result tableName dbName) := by
  have cells : ∀ row ∈ result.rows, Total (result.indices.mapM (getValue row)) :=
    fun row member => total_mapM fun i at_ e => ⟨_, _, getValue_run (inside row member i at_) e⟩
  apply (encodeNext_total _ _).bind
  intro response
  apply (total_foldlM (fun _ _ _ => encodeNext_total _ _) response).bind
  intro response
  apply (encodeNext_total _ _).bind
  intro response
  apply (total_foldlM (fun _ row member => (cells row member).bind fun _ =>
    encodeNext_total _ _) response).bind
  exact fun response => encodeNext_total _ _

theorem selectRows_inside {stmt : SelectStatement} {dbName : Bytes} {s s' : StorageEngine}
    {result : SelectResult} (every : s.Every Table.AllAdmissible)
    (ran : (selectRows stmt dbName).run s = .ok result s') :
    ∀ row ∈ result.rows, ∀ i ∈ result.indices, i < row.length := by
  obtain ⟨table, found, stored, inside⟩ := selectRows_ok ran
  intro row member i at_
  rw [(every _ _ _ found row (stored row member)).1]
  exact inside i at_

theorem executeSelect_returns (stmt : SelectStatement) {e : Exec}
    (every : e.storage.Every Table.AllAdmissible) :
    ∃ kept e', (executeSelect stmt).run e = .ok kept e' := by
  cases ran : (selectRows stmt e.session.currentDatabase).run e.storage with
  | error p s' =>
      obtain ⟨kept, e', sent⟩ := sendErr_total p { e with storage := s' }
      exact ⟨kept, e', (executeSelect_refused ran).trans sent⟩
  | ok result s' =>
      have sent : Total (do
          responseCallback (← encodeResultSet result stmt.tableName e.session.currentDatabase)
          return true) :=
        (encodeResultSet_total (selectRows_inside every ran) _ _).bind fun _ =>
          (responseCallback_total _).bind fun _ => total_pure true
      obtain ⟨kept, e', ran'⟩ := sent { e with storage := s' }
      refine ⟨kept, e', ?_⟩
      simp only [executeSelect, EStateM.run_bind, EStateM.run_get, onStorage_ok ran] at ran' ⊢
      exact ran'

/-! ## Commands -/

theorem executeUseDatabase_total (databaseName : Bytes) : Total (executeUseDatabase databaseName) :=
  (total_modify _).bind fun _ => sendOk_total _

theorem execute_total {stmt : Statement} (plain : Plain (some stmt)) : Total (execute stmt) := by
  apply total_get.bind
  intro e
  cases stmt with
  | select | insert => exact plain.elim
  | useDatabase databaseName => exact executeUseDatabase_total databaseName
  | _ => exact answer_total _

theorem execute_select_run (stmt : SelectStatement) (e : Exec) :
    (execute (.select stmt)).run e = (executeSelect stmt).run e := by
  rw [execute, run_get_bind]

/-- A query throws exactly when its limit overflows. -/
theorem handleQuery_cases {e : Exec} (every : e.storage.Every Table.AllAdmissible)
    (query : Bytes) : (LimitOverflows (statementTokens (trim query)) ∧
      (handleQuery query).run e = .error (.outOfRange (ascii "stoi")) e) ∨
    ¬ LimitOverflows (statementTokens (trim query)) ∧
      ∃ kept e', (handleQuery query).run e = .ok kept e' := by
  rcases parseQuery_cases (trim query) with
    ⟨overflow, throws⟩ | ⟨fits, stmt, errors, parsed, shape⟩
  · refine .inl ⟨overflow, ?_⟩
    unfold handleQuery
    rw [throws]
    rfl
  · refine .inr ⟨fits, ?_⟩
    unfold handleQuery
    rw [parsed]
    cases errors with
    | cons error rest => exact sendErr_total _ e
    | nil =>
        cases stmt with
        | none => exact sendOk_total _ e
        | some stmt =>
            rcases shape with plain | ⟨tableName, limit, same⟩
            · exact execute_total plain e
            · obtain rfl := Option.some.inj same
              have returns := executeSelect_returns (starStatement tableName limit) every
              dsimp only
              rw [execute_select_run]
              exact returns

theorem commandBody_returns_iff {e : Exec} (every : e.storage.Every Table.AllAdmissible)
    (cmdByte : UInt8) (text : Bytes) :
    (∃ kept e', (commandBody cmdByte text).run e = .ok kept e') ↔
      ¬ (cmdByte = COM_QUERY ∧ LimitOverflows (statementTokens (trim text))) := by
  unfold commandBody
  split
  · exact iff_of_true (sendOk_total _ e) fun query => absurd query.1 (by decide)
  · refine iff_of_true ?_ fun query => absurd query.1 (by decide)
    exact ((total_modify _).bind fun _ => total_pure true) e
  · rcases handleQuery_cases every text with ⟨overflow, throws⟩ | ⟨fits, returns⟩
    · refine iff_of_false ?_ fun fits => fits ⟨rfl, overflow⟩
      rintro ⟨kept, e', ran⟩
      rw [throws] at ran
      cases ran
    · exact iff_of_true returns fun query => fits query.2
  · refine iff_of_true ?_ fun query => absurd query.1 (by decide)
    exact ((total_modify _).bind fun _ => sendOk_total _) e
  · rename_i noQuery _
    refine iff_of_true ?_ fun query => noQuery query.1
    exact ((sendErr_total _).bind fun _ => total_pure false) e

end TinySql
