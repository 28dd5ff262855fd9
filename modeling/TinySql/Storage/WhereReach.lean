import TinySql.Storage.WhereSafety

/-!
# What the evaluation of a WHERE clause comes to

AND and OR look at their right operand only where the left one leaves the result open. A number
literal that stands for no value ends the evaluation in the rows in which it is looked at, and in no
other.
-/

namespace TinySql
open ExpressionEvaluator

namespace Expression

def names : Expression → List Bytes
  | .identifier name => [name]
  | .numberLiteral _ | .stringLiteral _ => []
  | .binary left _ right => left.names ++ right.names

def operators : Expression → List Bytes
  | .identifier _ | .numberLiteral _ | .stringLiteral _ => []
  | .binary left op right => op :: (left.operators ++ right.operators)

end Expression

theorem WellFormed.supported {columns : List ColumnDef} {expr : Expression}
    (wellFormed : WellFormed columns expr) :
    (∀ name ∈ expr.names, name ∈ columns.map ColumnDef.name) ∧
      ∀ op ∈ expr.operators, IsOperatorSymbol op := by
  have none {P : Bytes → Prop} : ∀ b ∈ ([] : List Bytes), P b :=
    fun b member => absurd member List.not_mem_nil
  induction wellFormed with
  | column named => exact ⟨List.forall_mem_singleton.mpr named, none⟩
  | number integer fits => exact ⟨none, none⟩
  | string text => exact ⟨none, none⟩
  | binary isLeft known isRight ihLeft ihRight =>
      simp only [Expression.names, Expression.operators, List.forall_mem_cons,
        List.forall_mem_append]
      exact ⟨⟨ihLeft.1, ihRight.1⟩, known, ihLeft.2, ihRight.2⟩

/-- The number literal stands for a value. -/
def Readable (text : Bytes) : Prop := HasValue (evaluateNumber text)

namespace Condition

theorem operators_toExpression (c : Condition) :
    ∀ op ∈ c.toExpression.operators, IsOperatorSymbol op := by
  have node {left right : Expression} {op : Bytes} (known : IsOperatorSymbol op)
      (isLeft : ∀ op ∈ left.operators, IsOperatorSymbol op)
      (isRight : ∀ op ∈ right.operators, IsOperatorSymbol op) :
      ∀ op' ∈ (Expression.binary left op right).operators, IsOperatorSymbol op' := by
    simp only [Expression.operators, List.forall_mem_cons, List.forall_mem_append]
    exact ⟨known, isLeft, isRight⟩
  induction c with
  | column name => exact fun op member => absurd member List.not_mem_nil
  | number text => exact fun op member => absurd member List.not_mem_nil
  | string text => exact fun op member => absurd member List.not_mem_nil
  | and left right ihLeft ihRight => exact node .and ihLeft ihRight
  | or left right ihLeft ihRight => exact node .or ihLeft ihRight
  | compare left c right ihLeft ihRight => exact node (.compare c) ihLeft ihRight

/-- An expression with supported operators only is a condition. -/
theorem exists_toExpression {expr : Expression} (known : ∀ op ∈ expr.operators, IsOperatorSymbol op) :
    ∃ c : Condition, c.toExpression = expr := by
  induction expr with
  | identifier name => exact ⟨.column name, rfl⟩
  | numberLiteral text => exact ⟨.number text, rfl⟩
  | stringLiteral text => exact ⟨.string text, rfl⟩
  | binary left op right ihLeft ihRight =>
      simp only [Expression.operators, List.forall_mem_cons, List.forall_mem_append] at known
      obtain ⟨here, isLeft, isRight⟩ := known
      obtain ⟨left, rfl⟩ := ihLeft isLeft
      obtain ⟨right, rfl⟩ := ihRight isRight
      cases here with
      | and => exact ⟨.and left right, rfl⟩
      | or => exact ⟨.or left right, rfl⟩
      | compare c => exact ⟨.compare left c right, rfl⟩

/-- The number literals that the evaluation of a condition comes to, in three-valued logic. -/
inductive LooksAt (v : Valuation) (text : Bytes) : Condition → Prop
  | number : LooksAt v text (.number text)
  | andLeft {left right : Condition} (here : LooksAt v text left) : LooksAt v text (.and left right)
  | andRight {left right : Condition} (goesOn : left.truth v (.bool false) = .true)
      (here : LooksAt v text right) : LooksAt v text (.and left right)
  | orLeft {left right : Condition} (here : LooksAt v text left) : LooksAt v text (.or left right)
  | orRight {left right : Condition} (goesOn : left.truth v (.bool false) ≠ .true)
      (here : LooksAt v text right) : LooksAt v text (.or left right)
  | compareLeft {left right : Condition} {c : Comparison} (here : LooksAt v text left) :
      LooksAt v text (.compare left c right)
  | compareRight {left right : Condition} {c : Comparison} (here : LooksAt v text right) :
      LooksAt v text (.compare left c right)

/-- All number literals that are looked at stand for values. -/
def Reads (v : Valuation) (c : Condition) : Prop := ∀ text, LooksAt v text c → Readable text

section Reads
variable {v : Valuation} {left right : Condition}

theorem reads_number {text : Bytes} : Reads v (.number text) ↔ Readable text := by
  constructor
  · exact fun reads => reads text .number
  · rintro readable _ ⟨⟩
    exact readable

theorem reads_column {name : Bytes} : Reads v (.column name) := by
  rintro text ⟨⟩

theorem reads_string {text : Bytes} : Reads v (.string text) := by
  rintro text ⟨⟩

theorem reads_and : Reads v (.and left right) ↔
    Reads v left ∧ (left.truth v (.bool false) = .true → Reads v right) := by
  constructor
  · exact fun reads => ⟨fun text here => reads text (.andLeft here),
      fun goesOn text here => reads text (.andRight goesOn here)⟩
  · rintro ⟨isLeft, isRight⟩ text (_ | here | ⟨goesOn, here⟩)
    · exact isLeft text here
    · exact isRight goesOn text here

theorem reads_or : Reads v (.or left right) ↔
    Reads v left ∧ (left.truth v (.bool false) ≠ .true → Reads v right) := by
  constructor
  · exact fun reads => ⟨fun text here => reads text (.orLeft here),
      fun goesOn text here => reads text (.orRight goesOn here)⟩
  · rintro ⟨isLeft, isRight⟩ text (_ | _ | _ | here | ⟨goesOn, here⟩)
    · exact isLeft text here
    · exact isRight goesOn text here

theorem reads_compare {c : Comparison} :
    Reads v (.compare left c right) ↔ Reads v left ∧ Reads v right := by
  constructor
  · exact fun reads => ⟨fun text here => reads text (.compareLeft here),
      fun text here => reads text (.compareRight here)⟩
  · rintro ⟨isLeft, isRight⟩ text (_ | _ | _ | _ | _ | here | here)
    · exact isLeft text here
    · exact isRight text here

end Reads

end Condition

/-! ## The evaluator comes to the same -/

theorem not_hasValue_error {α : Type} (e : Exn) : ¬ HasValue (.error e : Except Exn α) := by
  rintro ⟨a, none⟩
  cases none

theorem hasValue_ok {α : Type} (a : α) : HasValue (.ok a : Except Exn α) := ⟨a, rfl⟩

theorem hasValue_map {α β : Type} {f : α → β} {r : Except Exn α} :
    HasValue (f <$> r) ↔ HasValue r := by
  cases r with
  | error e => exact iff_of_false (not_hasValue_error e) (not_hasValue_error e)
  | ok a => exact iff_of_true (hasValue_ok _) (hasValue_ok a)

section Operators
variable {left right : Unit → Except Exn Bool} {leftValue rightValue : Unit → Except Exn Value}

theorem evaluateBinaryExpression_and_hasValue :
    HasValue (evaluateBinaryExpression (ascii "AND") left right leftValue rightValue) ↔
      HasValue (left ()) ∧ (left () = .ok true → HasValue (right ())) := by
  rw [evaluateBinaryExpression, if_pos rfl]
  cases left () with
  | error e => exact iff_of_false (not_hasValue_error e) fun both => not_hasValue_error e both.1
  | ok b =>
      cases b with
      | false => exact iff_of_true (hasValue_ok false) ⟨hasValue_ok false, fun goesOn => by cases goesOn⟩
      | true => exact ⟨fun found => ⟨hasValue_ok true, fun _ => found⟩, fun both => both.2 rfl⟩

theorem evaluateBinaryExpression_or_hasValue :
    HasValue (evaluateBinaryExpression (ascii "OR") left right leftValue rightValue) ↔
      HasValue (left ()) ∧ (left () = .ok false → HasValue (right ())) := by
  rw [evaluateBinaryExpression, if_neg (by decide), if_pos rfl]
  cases left () with
  | error e => exact iff_of_false (not_hasValue_error e) fun both => not_hasValue_error e both.1
  | ok b =>
      cases b with
      | true => exact iff_of_true (hasValue_ok true) ⟨hasValue_ok true, fun goesOn => by cases goesOn⟩
      | false => exact ⟨fun found => ⟨hasValue_ok false, fun _ => found⟩, fun both => both.2 rfl⟩

theorem evaluateBinaryExpression_compare_hasValue (c : Comparison) :
    HasValue (evaluateBinaryExpression c.symbol left right leftValue rightValue) ↔
      HasValue (leftValue ()) ∧ HasValue (rightValue ()) := by
  rw [evaluateBinaryExpression_symbol]
  cases leftValue () with
  | error e => exact iff_of_false (not_hasValue_error e) fun both => not_hasValue_error e both.1
  | ok u =>
      cases rightValue () with
      | error e => exact iff_of_false (not_hasValue_error e) fun both => not_hasValue_error e both.2
      | ok w => exact iff_of_true ⟨_, compareValues_symbol u w c⟩ ⟨hasValue_ok u, hasValue_ok w⟩

end Operators

variable {row : Row} {columns : List ColumnDef} {v : Condition.Valuation}

/-- Where a condition has a truth value, it is the one of three-valued logic. -/
theorem evaluate_ok_iff {c : Condition} {b : Bool} (extends_row : v.Extends row columns)
    (found : HasValue (evaluate row columns c.toExpression)) :
    evaluate row columns c.toExpression = .ok b ↔ (c.truth v (.bool false)).holds = b := by
  obtain ⟨b', returns⟩ := found
  rw [returns, Except.ok.injEq, (evaluate_condition extends_row c).1 b' returns]

/-- Both ways of evaluating a condition over known columns return exactly where all number literals
that are looked at stand for values. -/
theorem evaluate_hasValue_iff (extends_row : v.Extends row columns)
    (wide : row.length = columns.length) (c : Condition)
    (known : ∀ name ∈ c.toExpression.names, name ∈ columns.map ColumnDef.name) :
    (HasValue (evaluate row columns c.toExpression) ↔ c.Reads v) ∧
      (HasValue (evaluateValue row columns c.toExpression) ↔ c.Reads v) := by
  have both {left right : Expression} {op : Bytes} {P : Prop} (boolean : isBooleanOperator op = true)
      (truth : HasValue (evaluate row columns (.binary left op right)) ↔ P) :
      (HasValue (evaluate row columns (.binary left op right)) ↔ P) ∧
        (HasValue (evaluateValue row columns (.binary left op right)) ↔ P) := by
    rw [evaluateValue_binary boolean, hasValue_map]
    exact ⟨truth, truth⟩
  induction c with
  | column name =>
      have found := evaluateIdentifier_hasValue wide (known name List.mem_cons_self)
      exact ⟨iff_of_true (found.map condition) Condition.reads_column,
        iff_of_true found Condition.reads_column⟩
  | number text =>
      exact ⟨hasValue_map.trans Condition.reads_number.symm, Condition.reads_number.symm⟩
  | string text =>
      exact ⟨iff_of_true ⟨_, rfl⟩ Condition.reads_string,
        iff_of_true ⟨_, rfl⟩ Condition.reads_string⟩
  | and left right ihLeft ihRight =>
      obtain ⟨isLeft, isRight⟩ := List.forall_mem_append.mp known
      apply both rfl
      rw [evaluate, evaluateBinaryExpression_and_hasValue, (ihLeft isLeft).1, (ihRight isRight).1,
        Condition.reads_and]
      refine and_congr_right fun reads => ?_
      rw [evaluate_ok_iff extends_row ((ihLeft isLeft).1.mpr reads), Kleene.holds_iff]
  | or left right ihLeft ihRight =>
      obtain ⟨isLeft, isRight⟩ := List.forall_mem_append.mp known
      apply both rfl
      rw [evaluate, evaluateBinaryExpression_or_hasValue, (ihLeft isLeft).1, (ihRight isRight).1,
        Condition.reads_or]
      refine and_congr_right fun reads => ?_
      rw [evaluate_ok_iff extends_row ((ihLeft isLeft).1.mpr reads), ← Bool.not_eq_true, Kleene.holds_iff]
  | compare left c right ihLeft ihRight =>
      obtain ⟨isLeft, isRight⟩ := List.forall_mem_append.mp known
      apply both (isBooleanOperator_symbol c)
      rw [evaluate, evaluateBinaryExpression_compare_hasValue, (ihLeft isLeft).2, (ihRight isRight).2,
        Condition.reads_compare]

end TinySql
