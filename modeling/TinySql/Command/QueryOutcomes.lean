import TinySql.Command.AnswerKinds
import TinySql.Sql.ErrorReports

/-!
# Queries that are not parsed

The handler of COM_QUERY executes a statement only when the parser has recorded no error, and
answers a null statement with OK only when there is nothing in the text but semicolons.
-/

namespace TinySql
open Frame TinySql.Parser

/-- The query has one response, the ERR packet of this syntax error, and nothing else happens. -/
def Rejects (query : Bytes) (e : Exec) (error : Bytes) : Prop :=
  (handleQuery query).run e =
    .ok true (e.responded (packet e.session.sequenceId (syntaxError error).payload))

theorem handleQuery_rejects {query error : Bytes} {stmt : Option Statement} {rest : List Bytes}
    (parsed : parseQuery (trim query) = .ok (stmt, error :: rest)) (e : Exec) :
    Rejects query e error := by
  unfold Rejects handleQuery
  rw [parsed]
  exact sendErr_run (syntaxError error) e

/-- When `parse` returns there is either an error or a statement, or nothing in the text. A query
with an error, or with something in it of which nothing has been made, is rejected. -/
theorem query_outcomes {input : Bytes} {stmt : Option Statement} {p : Parser}
    (ran : parse.run (create input) = .ok stmt p) : Exclusive input stmt p.errors ∧
      ∀ query e, trim query = input → (p.errors ≠ [] ∨ stmt = none ∧ ¬ Blank input) →
        ∃ error ∈ p.errors, Rejects query e error := by
  have exclusive := parse_exclusive ran
  refine ⟨exclusive, ?_⟩
  rintro query e rfl bad
  have some : p.errors ≠ [] := by
    rcases bad with errors | ⟨rfl, more⟩
    · exact errors
    · rcases exclusive with ⟨-, errors⟩ | ⟨⟨stmt, made⟩, -⟩ | ⟨-, -, blank⟩
      · exact errors
      · cases made
      · exact absurd blank more
  obtain ⟨error, rest, split⟩ := List.exists_cons_of_ne_nil some
  have parsed := parseQuery_ok ran
  rw [split] at parsed ⊢
  exact ⟨error, List.mem_cons_self, handleQuery_rejects parsed e⟩

theorem query_outcomes_show : ∃ stmt p, parse.run (create (ascii "SHOW (")) = .ok stmt p ∧
    Exclusive (ascii "SHOW (") stmt p.errors ∧
      ∀ query e, trim query = ascii "SHOW (" →
        (p.errors ≠ [] ∨ stmt = none ∧ ¬ Blank (ascii "SHOW (")) →
          ∃ error ∈ p.errors, Rejects query e error := by
  have stops : stop (ascii "SHOW (") = some (none, [ascii
      "Parse error at line 1, column 6: Unexpected token after SHOW"], .LPAREN) := by decide +kernel
  obtain ⟨p, ran, -⟩ := run_of_stop stops
  exact ⟨none, p, ran, query_outcomes ran⟩

end TinySql
