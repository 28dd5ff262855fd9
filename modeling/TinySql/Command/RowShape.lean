import TinySql.Command.Totality

/-!
# The width of rows

Rows are stored with one cell for each column of their table, so that no SELECT looks for a cell that
is not there: not in its projection, and not in its WHERE clause.
-/

namespace TinySql
open StorageEngine

namespace ExpressionEvaluator

def narrowRow (colName : Bytes) : Exn :=
  .runtimeError (ascii "Row has insufficient columns for identifier: " ++ colName)

def Passes {α : Type} (r : Except Exn α) : Prop := ∀ name, r ≠ .error (narrowRow name)

section Passes
variable {α β : Type} {r : Except Exn α}

theorem passes_ok (a : α) : Passes (.ok a : Except Exn α) := nofun

theorem passes_error {text : Bytes} (other : text[0]? ≠ some 'R'.toUInt8) :
    Passes (.error (.runtimeError text) : Except Exn α) := by
  intro name same
  have texts := Exn.runtimeError.inj (Except.error.inj same)
  rw [texts] at other
  exact other rfl

theorem Passes.map (f : α → β) (passes : Passes r) : Passes (f <$> r) := by
  cases r with
  | ok a => exact passes_ok (f a)
  | error e =>
      intro name same
      exact passes name (congrArg _ (Except.error.inj same))

theorem Passes.bind {f : α → Except Exn β} (passes : Passes r) (later : ∀ a, Passes (f a)) :
    Passes (r >>= f) := by
  cases r with
  | ok a => exact later a
  | error e =>
      intro name same
      exact passes name (congrArg _ (Except.error.inj same))

end Passes

section Wide
variable {row : Row} {columns : List ColumnDef} (width : row.length = columns.length)

include width in
theorem evaluateIdentifier_passes (colName : Bytes) :
    Passes (evaluateIdentifier row columns colName) := by
  unfold evaluateIdentifier
  cases found : columns.findIdx? (·.name == colName) with
  | none => exact passes_error (by simp [ascii]; decide)
  | some i =>
      obtain ⟨inside, -⟩ := List.findIdx?_eq_some_iff_getElem.mp found
      dsimp only
      rw [List.getElem?_eq_getElem (width ▸ inside)]
      exact passes_ok _

theorem evaluateNumber_passes (valueStr : Bytes) : Passes (evaluateNumber valueStr) := by
  unfold evaluateNumber
  split
  · split
    · exact passes_ok _
    · exact passes_error (by simp [ascii]; decide)
  · split
    · split <;> exact passes_ok _
    · exact passes_error (by simp [ascii]; decide)

theorem compareValues_passes (left : Value) (op : Bytes) (right : Value) :
    Passes (compareValues left op right) := by
  unfold compareValues
  split_ifs
  all_goals first | exact passes_ok _ | exact passes_error (by simp [ascii]; decide)

theorem evaluateBinaryExpression_passes (op : Bytes) {left right : Unit → Except Exn Bool}
    {leftValue rightValue : Unit → Except Exn Value} (isLeft : Passes (left ()))
    (isRight : Passes (right ())) (isLeftValue : Passes (leftValue ()))
    (isRightValue : Passes (rightValue ())) :
    Passes (evaluateBinaryExpression op left right leftValue rightValue) := by
  unfold evaluateBinaryExpression
  split
  · apply isLeft.bind
    intro b
    cases b with
    | true => exact isRight
    | false => exact passes_ok false
  · split
    · apply isLeft.bind
      intro b
      cases b with
      | true => exact passes_ok true
      | false => exact isRight
    · apply isLeftValue.bind
      intro l
      apply isRightValue.bind
      intro r
      exact compareValues_passes l op r

include width in
theorem evaluate_passes (expr : Expression) :
    Passes (evaluate row columns expr) ∧ Passes (evaluateValue row columns expr) := by
  induction expr with
  | identifier name =>
      have found := evaluateIdentifier_passes width name
      exact ⟨found.map condition, found⟩
  | numberLiteral value =>
      exact ⟨(evaluateNumber_passes value).map condition, evaluateNumber_passes value⟩
  | stringLiteral value => exact ⟨passes_ok _, passes_ok _⟩
  | binary left op right isLeft isRight =>
      have both : Passes (evaluateBinaryExpression op
          (fun _ => evaluate row columns left) (fun _ => evaluate row columns right)
          (fun _ => evaluateValue row columns left) (fun _ => evaluateValue row columns right)) :=
        evaluateBinaryExpression_passes op isLeft.1 isRight.1 isLeft.2 isRight.2
      constructor
      · exact both
      · rw [evaluateValue]
        split
        · exact both.map Value.bool
        · exact passes_error (by simp [ascii]; decide)

end Wide

end ExpressionEvaluator

open ExpressionEvaluator

/-- In every storage that statements can make, each row has a cell for each column and no NULL in a
NOT NULL column; no SELECT throws for a cell that is not there, and no WHERE clause fails its width
check on a row of its table. -/
theorem rows_keep_shape (s : StorageEngine) (reached : Reached s) :
    s.Every Table.AllAdmissible ∧
    (∀ (stmt : SelectStatement) (e : Exec), e.storage = s →
      ∃ kept e', (executeSelect stmt).run e = .ok kept e') ∧
    ∀ dbName tableName t, s.getTable dbName tableName = some t → ∀ row ∈ t.rows,
      (∀ name, Passes (evaluateIdentifier row t.columns name)) ∧
      ∀ whereClause, Passes (matchesWhere whereClause t.columns row) := by
  have every := reached.allAdmissible
  refine ⟨every, ?_, ?_⟩
  · rintro stmt e rfl
    exact executeSelect_returns stmt every
  · intro dbName tableName t found row member
    have width := (every dbName tableName t found row member).1
    constructor
    · exact evaluateIdentifier_passes width
    · intro whereClause
      cases whereClause with
      | none => exact passes_ok true
      | some expr => exact (evaluate_passes width expr).1

theorem rows_keep_shape_duplicateStorage :
    duplicateStorage.Every Table.AllAdmissible ∧
    (∀ (stmt : SelectStatement) (e : Exec), e.storage = duplicateStorage →
      ∃ kept e', (executeSelect stmt).run e = .ok kept e') ∧
    ∀ dbName tableName t, duplicateStorage.getTable dbName tableName = some t → ∀ row ∈ t.rows,
      (∀ name, Passes (evaluateIdentifier row t.columns name)) ∧
      ∀ whereClause, Passes (matchesWhere whereClause t.columns row) :=
  rows_keep_shape duplicateStorage duplicateStorage_reached

end TinySql
