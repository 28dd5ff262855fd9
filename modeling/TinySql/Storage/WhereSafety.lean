import TinySql.Storage.WhereLogic

/-!
# WHERE clauses that cannot fail

The evaluator throws for a name that is no column, a number that no 64-bit integer holds and an
operator it does not know. An expression with none of these has a value in every row of the width
of its table, whatever the cells hold.
-/

namespace TinySql
open ExpressionEvaluator

/-! ## Integer literals -/

theorem not_mem_of_not_isDigit {digits : Bytes} (integer : IsInteger digits) {b : UInt8}
    (other : isDigit b = false) : b ∉ digits := by
  intro member
  rw [integer.2 b member] at other
  cases other

theorem evaluateNumber_digits {digits : Bytes} (integer : IsInteger digits) :
    evaluateNumber digits =
      if digitsValue digits < 2 ^ 31 then .ok (.int (Int32.ofInt (digitsValue digits)))
      else if digitsValue digits < 2 ^ 63 then .ok (.bigint (Int64.ofInt (digitsValue digits)))
      else .error (.runtimeError (ascii "Invalid integer literal: " ++ digits)) := by
  have whole : ¬ ('.'.toUInt8 ∈ digits ∨ 'e'.toUInt8 ∈ digits ∨ 'E'.toUInt8 ∈ digits) := by
    rintro (dot | lower | upper)
    · exact not_mem_of_not_isDigit integer (by decide) dot
    · exact not_mem_of_not_isDigit integer (by decide) lower
    · exact not_mem_of_not_isDigit integer (by decide) upper
  rw [evaluateNumber, if_neg whole, stoll_digits integer]
  generalize digitsValue digits = n
  by_cases fits : n < 2 ^ 63
  · have value : (Int64.ofInt n).toInt = n := Int64.toInt_ofInt_of_le (by omega) (by omega)
    have low : Int32.minValue.toInt64 ≤ Int64.ofInt n := by
      rw [Int64.le_iff_toInt_le, value]
      exact (show Int32.minValue.toInt64.toInt ≤ 0 by decide).trans (by omega)
    have high : Int64.ofInt n ≤ Int32.maxValue.toInt64 ↔ n < 2 ^ 31 := by
      rw [Int64.le_iff_toInt_le, value, show Int32.maxValue.toInt64.toInt = 2 ^ 31 - 1 by decide]
      omega
    simp only [if_pos fits, low, true_and, high, Int64.toInt32_ofInt]
  · simp only [if_neg fits, if_neg (show ¬ n < 2 ^ 31 by omega)]

/-! ## Well-formed expressions -/

inductive IsOperatorSymbol : Bytes → Prop
  | and : IsOperatorSymbol (ascii "AND")
  | or : IsOperatorSymbol (ascii "OR")
  | compare (c : Comparison) : IsOperatorSymbol c.symbol

inductive WellFormed (columns : List ColumnDef) : Expression → Prop
  | column {name : Bytes} (named : name ∈ columns.map ColumnDef.name) :
      WellFormed columns (.identifier name)
  | number {digits : Bytes} (integer : IsInteger digits) (fits : digitsValue digits < 2 ^ 63) :
      WellFormed columns (.numberLiteral digits)
  | string (text : Bytes) : WellFormed columns (.stringLiteral text)
  | binary {left right : Expression} {op : Bytes} (isLeft : WellFormed columns left)
      (known : IsOperatorSymbol op) (isRight : WellFormed columns right) :
      WellFormed columns (.binary left op right)

def HasValue {α : Type} (r : Except Exn α) : Prop := ∃ a, r = .ok a

section HasValue
variable {α β : Type} {r : Except Exn α}

theorem HasValue.map (f : α → β) (found : HasValue r) : HasValue (f <$> r) := by
  obtain ⟨a, rfl⟩ := found
  exact ⟨f a, rfl⟩

theorem HasValue.bind {f : α → Except Exn β} (found : HasValue r) (later : ∀ a, HasValue (f a)) :
    HasValue (r >>= f) := by
  obtain ⟨a, rfl⟩ := found
  exact later a

end HasValue

variable {row : Row} {columns : List ColumnDef}

theorem evaluateIdentifier_hasValue {name : Bytes} (wide : row.length = columns.length)
    (named : name ∈ columns.map ColumnDef.name) : HasValue (evaluateIdentifier row columns name) := by
  obtain ⟨column, member, rfl⟩ := List.mem_map.mp named
  unfold evaluateIdentifier
  cases found : columns.findIdx? (·.name == column.name) with
  | none => exact absurd (List.findIdx?_eq_none_iff.mp found column member) (by simp)
  | some i =>
      obtain ⟨inside, -⟩ := List.findIdx?_eq_some_iff_getElem.mp found
      dsimp only
      rw [List.getElem?_eq_getElem (wide ▸ inside)]
      exact ⟨_, rfl⟩

theorem evaluateNumber_hasValue {digits : Bytes} (integer : IsInteger digits)
    (fits : digitsValue digits < 2 ^ 63) : HasValue (evaluateNumber digits) := by
  rw [evaluateNumber_digits integer, if_pos fits]
  split_ifs <;> exact ⟨_, rfl⟩

section Operator
variable {left right : Unit → Except Exn Bool} {leftValue rightValue : Unit → Except Exn Value}

theorem evaluateBinaryExpression_hasValue {op : Bytes} (known : IsOperatorSymbol op)
    (isLeft : HasValue (left ())) (isRight : HasValue (right ()))
    (isLeftValue : HasValue (leftValue ())) (isRightValue : HasValue (rightValue ())) :
    HasValue (evaluateBinaryExpression op left right leftValue rightValue) := by
  cases known with
  | and =>
      apply isLeft.bind
      intro b
      cases b with
      | true => exact isRight
      | false => exact ⟨false, rfl⟩
  | or =>
      apply isLeft.bind
      intro b
      cases b with
      | true => exact ⟨true, rfl⟩
      | false => exact isRight
  | compare c =>
      rw [evaluateBinaryExpression_symbol]
      apply isLeftValue.bind
      intro u
      apply isRightValue.bind
      intro v
      exact ⟨_, compareValues_symbol u v c⟩

end Operator

theorem IsOperatorSymbol.boolean {op : Bytes} (known : IsOperatorSymbol op) :
    isBooleanOperator op = true := by
  cases known with
  | and => rfl
  | or => rfl
  | compare c => exact isBooleanOperator_symbol c

/-- Both ways of evaluating a well-formed expression return. -/
theorem WellFormed.hasValue {expr : Expression} (wellFormed : WellFormed columns expr)
    (wide : row.length = columns.length) :
    HasValue (evaluate row columns expr) ∧ HasValue (evaluateValue row columns expr) := by
  induction wellFormed with
  | column named =>
      have found := evaluateIdentifier_hasValue wide named
      exact ⟨found.map condition, found⟩
  | number integer fits =>
      have value := evaluateNumber_hasValue integer fits
      exact ⟨value.map condition, value⟩
  | string text => exact ⟨⟨_, rfl⟩, ⟨_, rfl⟩⟩
  | @binary left right op isLeft known isRight ihLeft ihRight =>
      have truth : HasValue (evaluate row columns (.binary left op right)) :=
        evaluateBinaryExpression_hasValue known ihLeft.1 ihRight.1 ihLeft.2 ihRight.2
      refine ⟨truth, ?_⟩
      rw [evaluateValue_binary known.boolean]
      exact truth.map Value.bool

/-- A well-formed WHERE clause has a truth value in every row as wide as its table. -/
theorem evaluate_wellFormed (row : Row) (columns : List ColumnDef) (expr : Expression)
    (wide : row.length = columns.length) (wellFormed : WellFormed columns expr) :
    ∃ b, evaluate row columns expr = .ok b :=
  (wellFormed.hasValue wide).1

/-- `c < 'x' OR c = 5`, where `c` is NULL. -/
theorem evaluate_wellFormed_null : ∃ b, evaluate [.null] [{ name := ascii "c", type := .int }]
    (.binary (.binary (.identifier (ascii "c")) (ascii "<") (.stringLiteral (ascii "x")))
      (ascii "OR")
      (.binary (.identifier (ascii "c")) (ascii "=") (.numberLiteral (ascii "5")))) = .ok b :=
  evaluate_wellFormed _ _ _ rfl
    (.binary
      (.binary (.column (List.mem_singleton.mpr rfl)) (.compare .less) (.string _))
      .or
      (.binary (.column (List.mem_singleton.mpr rfl)) (.compare .equal)
        (.number ⟨by decide, List.all_eq_true.mp (by decide)⟩ (by decide))))

end TinySql
