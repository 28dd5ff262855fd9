import TinySql.Lib.Kleene
import TinySql.Storage.ExpressionEvaluator

/-!
# The WHERE clause and three-valued logic

Conditions as SQL reads them, each with the expression that stands for it in the syntax tree. The
evaluator keeps a row exactly when the condition is true in Kleene's logic, where an UNKNOWN
operand of a comparison counts as FALSE: the evaluator has forgotten by then that it is UNKNOWN.
-/

namespace TinySql
open ExpressionEvaluator

inductive Comparison where
  | equal
  | notEqual
  | less
  | greater
  | lessEqual
  | greaterEqual
  deriving DecidableEq, Repr

namespace Comparison

def symbol : Comparison → Bytes
  | .equal => ascii "="
  | .notEqual => ascii "!="
  | .less => ascii "<"
  | .greater => ascii ">"
  | .lessEqual => ascii "<="
  | .greaterEqual => ascii ">="

def apply : Comparison → Value → Value → Bool
  | .equal => Value.eq
  | .notEqual => Value.ne
  | .less => Value.less
  | .greater => Value.greater
  | .lessEqual => Value.lessEq
  | .greaterEqual => Value.greaterEq

def truth (c : Comparison) (left right : Value) : Kleene :=
  if left.isNull || right.isNull then .unknown else .ofBool (c.apply left right)

end Comparison

inductive Condition where
  | column (name : Bytes)
  | number (value : Bytes)
  | string (value : Bytes)
  | and (left right : Condition)
  | or (left right : Condition)
  | compare (left : Condition) (c : Comparison) (right : Condition)
  deriving DecidableEq, Repr

namespace Condition

def toExpression : Condition → Expression
  | .column name => .identifier name
  | .number value => .numberLiteral value
  | .string value => .stringLiteral value
  | .and left right => .binary left.toExpression (ascii "AND") right.toExpression
  | .or left right => .binary left.toExpression (ascii "OR") right.toExpression
  | .compare left c right => .binary left.toExpression c.symbol right.toExpression

/-- The values that columns and number literals stand for. -/
structure Valuation where
  column : Bytes → Value
  number : Bytes → Value

/-- The valuation agrees with the evaluator wherever that finds a value. -/
structure Valuation.Extends (v : Valuation) (row : Row) (columns : List ColumnDef) : Prop where
  column : ∀ name value, evaluateIdentifier row columns name = .ok value → v.column name = value
  number : ∀ text value, evaluateNumber text = .ok value → v.number text = value

/-- A plain value as a condition: UNKNOWN when NULL, else what `evaluate` makes of it. -/
def asTruth : Value ⊕ Kleene → Kleene
  | .inl value => if value.isNull then .unknown else .ofBool (condition value)
  | .inr truth => truth

/-- A truth value as an operand, where `unknown` stands for UNKNOWN. -/
def asOperand (unknown : Value) : Value ⊕ Kleene → Value
  | .inl value => value
  | .inr .true => .bool true
  | .inr .false => .bool false
  | .inr .unknown => unknown

/-- The three-valued meaning of a condition. -/
def meaning (v : Valuation) (unknown : Value) : Condition → Value ⊕ Kleene
  | .column name => .inl (v.column name)
  | .number value => .inl (v.number value)
  | .string value => .inl (.string value)
  | .and left right =>
      .inr ((asTruth (left.meaning v unknown)).and (asTruth (right.meaning v unknown)))
  | .or left right =>
      .inr ((asTruth (left.meaning v unknown)).or (asTruth (right.meaning v unknown)))
  | .compare left c right =>
      .inr (c.truth (asOperand unknown (left.meaning v unknown))
        (asOperand unknown (right.meaning v unknown)))

def truth (v : Valuation) (unknown : Value) (c : Condition) : Kleene :=
  asTruth (c.meaning v unknown)

end Condition

/-! ## The evaluator on conditions -/

theorem condition_eq_holds (value : Value) :
    condition value = (Condition.asTruth (.inl value)).holds := by
  cases value with
  | null => rfl
  | _ => simp [Condition.asTruth, Value.isNull, condition]

theorem compareValues_symbol (left right : Value) (c : Comparison) :
    compareValues left c.symbol right = .ok (c.truth left right).holds := by
  unfold compareValues Comparison.truth
  by_cases null : (left.isNull || right.isNull) = true
  · rw [if_pos null, if_pos null]
    rfl
  · rw [if_neg null, if_neg null, Kleene.holds_ofBool]
    cases c <;> rfl

theorem asOperand_inr (t : Kleene) :
    Condition.asOperand (.bool false) (.inr t) = .bool t.holds := by
  cases t <;> rfl

section Evaluator
variable {left right : Unit → Except Exn Bool} {leftValue rightValue : Unit → Except Exn Value}
  {b : Bool}

theorem evaluateBinaryExpression_and
    (returns : evaluateBinaryExpression (ascii "AND") left right leftValue rightValue = .ok b) :
    ∃ a, left () = .ok a ∧ (a = false ∧ b = false ∨ a = true ∧ right () = .ok b) := by
  rw [evaluateBinaryExpression, if_pos rfl] at returns
  cases first : left () with
  | error e => simp [first, bind, Except.bind] at returns
  | ok a =>
      cases a <;> simp_all [bind, Except.bind, pure, Except.pure]

theorem evaluateBinaryExpression_or
    (returns : evaluateBinaryExpression (ascii "OR") left right leftValue rightValue = .ok b) :
    ∃ a, left () = .ok a ∧ (a = true ∧ b = true ∨ a = false ∧ right () = .ok b) := by
  rw [evaluateBinaryExpression, if_neg (by decide), if_pos rfl] at returns
  cases first : left () with
  | error e => simp [first, bind, Except.bind] at returns
  | ok a =>
      cases a <;> simp_all [bind, Except.bind, pure, Except.pure]

theorem evaluateBinaryExpression_symbol (c : Comparison) :
    evaluateBinaryExpression c.symbol left right leftValue rightValue = (do
      let u ← leftValue ()
      let v ← rightValue ()
      compareValues u c.symbol v) := by
  cases c <;> rfl

theorem evaluateBinaryExpression_compare (c : Comparison)
    (returns : evaluateBinaryExpression c.symbol left right leftValue rightValue = .ok b) :
    ∃ u v, leftValue () = .ok u ∧ rightValue () = .ok v ∧ b = (c.truth u v).holds := by
  rw [evaluateBinaryExpression_symbol] at returns
  cases first : leftValue () with
  | error e => simp [first, bind, Except.bind] at returns
  | ok u =>
      cases second : rightValue () with
      | error e => simp [first, second, bind, Except.bind] at returns
      | ok v =>
          simp only [first, second, bind, Except.bind, compareValues_symbol] at returns
          exact ⟨u, v, rfl, rfl, by simpa using returns.symm⟩

end Evaluator

theorem isBooleanOperator_symbol (c : Comparison) : isBooleanOperator c.symbol = true := by
  cases c <;> rfl

theorem map_eq_ok {α β : Type} {f : α → β} {x : Except Exn α} {b : β} :
    f <$> x = .ok b ↔ ∃ a, x = .ok a ∧ f a = b := by
  cases x <;> simp [Functor.map, Except.map]

variable {row : Row} {columns : List ColumnDef} {v : Condition.Valuation}

theorem evaluateValue_binary {op : Bytes} (boolean : isBooleanOperator op = true)
    (left right : Expression) : evaluateValue row columns (.binary left op right) =
      Value.bool <$> evaluate row columns (.binary left op right) := by
  rw [evaluateValue, evaluate, if_pos boolean]

theorem evaluate_connective {c : Condition} {left right : Expression} {op : Bytes} {t : Kleene}
    (tree : c.toExpression = .binary left op right) (boolean : isBooleanOperator op = true)
    (meaning : c.meaning v (.bool false) = .inr t)
    (as_condition : ∀ b, evaluate row columns (.binary left op right) = .ok b → b = t.holds) :
    (∀ b, evaluate row columns c.toExpression = .ok b → b = (c.truth v (.bool false)).holds) ∧
    (∀ u, evaluateValue row columns c.toExpression = .ok u →
      u = Condition.asOperand (.bool false) (c.meaning v (.bool false))) := by
  rw [tree, Condition.truth, meaning, asOperand_inr]
  refine ⟨as_condition, fun u returns => ?_⟩
  rw [evaluateValue_binary boolean] at returns
  obtain ⟨b, truth, rfl⟩ := map_eq_ok.mp returns
  rw [as_condition b truth]

/-- Both ways of evaluating a condition: as a condition it holds when it is true, and as an operand
it is the truth value that is left when UNKNOWN has become FALSE. -/
theorem evaluate_condition (extends_row : v.Extends row columns) (c : Condition) :
    (∀ b, evaluate row columns c.toExpression = .ok b → b = (c.truth v (.bool false)).holds) ∧
    (∀ u, evaluateValue row columns c.toExpression = .ok u →
      u = Condition.asOperand (.bool false) (c.meaning v (.bool false))) := by
  induction c with
  | column name =>
      constructor
      · intro b returns
        obtain ⟨u, found, rfl⟩ := map_eq_ok.mp returns
        rw [condition_eq_holds, ← extends_row.column name u found]
        rfl
      · intro u returns
        exact (extends_row.column name u returns).symm
  | number text =>
      constructor
      · intro b returns
        obtain ⟨u, found, rfl⟩ := map_eq_ok.mp returns
        rw [condition_eq_holds, ← extends_row.number text u found]
        rfl
      · intro u returns
        exact (extends_row.number text u returns).symm
  | string text =>
      constructor
      · intro b returns
        cases returns
        exact condition_eq_holds (.string text)
      · intro u returns
        cases returns
        rfl
  | and left right ihLeft ihRight =>
      refine evaluate_connective rfl rfl rfl fun b returns => ?_
      rw [evaluate] at returns
      obtain ⟨a, first, second⟩ := evaluateBinaryExpression_and returns
      have first := ihLeft.1 a first
      rw [Kleene.holds_and]
      rcases second with ⟨rfl, rfl⟩ | ⟨rfl, second⟩
      · rw [Condition.truth] at first
        rw [← first, Bool.false_and]
      · have second := ihRight.1 b second
        rw [Condition.truth] at first second
        rw [← first, ← second, Bool.true_and]
  | or left right ihLeft ihRight =>
      refine evaluate_connective rfl rfl rfl fun b returns => ?_
      rw [evaluate] at returns
      obtain ⟨a, first, second⟩ := evaluateBinaryExpression_or returns
      have first := ihLeft.1 a first
      rw [Kleene.holds_or]
      rcases second with ⟨rfl, rfl⟩ | ⟨rfl, second⟩
      · rw [Condition.truth] at first
        rw [← first, Bool.true_or]
      · have second := ihRight.1 b second
        rw [Condition.truth] at first second
        rw [← first, ← second, Bool.false_or]
  | compare left c right ihLeft ihRight =>
      refine evaluate_connective rfl (isBooleanOperator_symbol c) rfl fun b returns => ?_
      rw [evaluate] at returns
      obtain ⟨x, y, first, second, rfl⟩ := evaluateBinaryExpression_compare c returns
      rw [ihLeft.2 x first, ihRight.2 y second]

/-- Where `evaluate` returns, it says whether the condition is true in three-valued logic, if an
UNKNOWN operand of a comparison counts as FALSE. -/
theorem evaluate_eq_true_iff (extends_row : v.Extends row columns) (c : Condition) (b : Bool)
    (returns : evaluate row columns c.toExpression = .ok b) :
    b = true ↔ c.truth v (.bool false) = .true := by
  rw [(evaluate_condition extends_row c).1 b returns, Kleene.holds_iff]

namespace Condition

/-- The values in a row, NULL for a name or a number that has none. -/
def Valuation.ofRow (row : Row) (columns : List ColumnDef) : Valuation where
  column name := (evaluateIdentifier row columns name).toOption.getD .null
  number text := (evaluateNumber text).toOption.getD .null

theorem Valuation.ofRow_extends (row : Row) (columns : List ColumnDef) :
    (Valuation.ofRow row columns).Extends row columns where
  column name value found := by simp [Valuation.ofRow, found, Except.toOption]
  number text value found := by simp [Valuation.ofRow, found, Except.toOption]

/-- `(c = 1) != (1 = 1)`. -/
def unknownOperand : Condition :=
  .compare (.compare (.column (ascii "c")) .equal (.number (ascii "1"))) .notEqual
    (.compare (.number (ascii "1")) .equal (.number (ascii "1")))

def nullRow : Valuation := .ofRow [.null] [{ name := ascii "c", type := .int }]

end Condition

theorem truth_unknownOperand :
    Condition.unknownOperand.truth Condition.nullRow (.bool false) = .true :=
  (evaluate_eq_true_iff (Condition.Valuation.ofRow_extends _ _) Condition.unknownOperand true
    rfl).mp rfl

/-- The row is kept though the condition is UNKNOWN, when an UNKNOWN operand is NULL. -/
theorem unknownOperand_kept :
    Condition.nullRow.Extends [.null] [{ name := ascii "c", type := .int }] ∧
    evaluate [.null] [{ name := ascii "c", type := .int }]
      Condition.unknownOperand.toExpression = .ok true ∧
    Condition.unknownOperand.truth Condition.nullRow .null = .unknown :=
  ⟨Condition.Valuation.ofRow_extends _ _, rfl, rfl⟩

end TinySql
