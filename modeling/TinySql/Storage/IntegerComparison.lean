import TinySql.Storage.WhereSafety

/-!
# Integers of two widths

An integer stands in a cell as an `INT` or as a `BIGINT`. The order of values looks at the
alternative before the number, so that every `INT` is below every `BIGINT` and equal to none.
-/

namespace TinySql
open ExpressionEvaluator

/-- The integer that a cell holds in either width. -/
def Value.integer? : Value → Option Int
  | .int val => some val.toInt
  | .bigint val => some val.toInt
  | _ => none

namespace Comparison

def between : Comparison → Int → Int → Bool
  | .equal, a, b => a = b
  | .notEqual, a, b => a ≠ b
  | .less, a, b => a < b
  | .greater, a, b => a > b
  | .lessEqual, a, b => a ≤ b
  | .greaterEqual, a, b => a ≥ b

/-- The integers lie in such a way that the operator may take the left one for the smaller. -/
def AsIfLess : Comparison → Int → Int → Prop
  | .equal, a, b | .notEqual, a, b => a ≠ b
  | .less, a, b | .greaterEqual, a, b => a < b
  | .greater, a, b | .lessEqual, a, b => a ≤ b

/-- The integers lie in such a way that the operator may take the left one for the greater. -/
def AsIfGreater : Comparison → Int → Int → Prop
  | .equal, a, b | .notEqual, a, b => a ≠ b
  | .less, a, b | .greaterEqual, a, b => b ≤ a
  | .greater, a, b | .lessEqual, a, b => b < a

theorem asIfLess_iff (c : Comparison) (a b : Int) :
    c.AsIfLess a b ↔ c.between 1 2 = c.between a b := by
  cases c <;> simp [AsIfLess, between]

theorem asIfGreater_iff (c : Comparison) (a b : Int) :
    c.AsIfGreater a b ↔ c.between 2 1 = c.between a b := by
  cases c <;> simp [AsIfGreater, between]

end Comparison

/-- The operator meets the two integers in the widths in which they are held. -/
def MeetsWidths (c : Comparison) (left right : Value) (a b : Int) : Prop :=
  left.getType = right.getType ∨
  left.getType = .int ∧ right.getType = .bigint ∧ c.AsIfLess a b ∨
  left.getType = .bigint ∧ right.getType = .int ∧ c.AsIfGreater a b

/-! ## What the evaluator compares -/

theorem compareValues_present {left right : Value} (isLeft : left.isNull = false)
    (isRight : right.isNull = false) (c : Comparison) :
    compareValues left c.symbol right = .ok (c.apply left right) := by
  rw [compareValues_symbol, Comparison.truth, isLeft, isRight]
  exact congrArg Except.ok (Kleene.holds_ofBool _)

theorem apply_eq_between {left right : Value} {a b : Int}
    (equal : left.eq right = decide (a = b)) (below : left.less right = decide (a < b))
    (c : Comparison) : c.apply left right = c.between a b := by
  cases c with
  | equal => exact equal
  | notEqual => simp [Comparison.apply, Comparison.between, Value.ne, equal]
  | less => exact below
  | greater =>
      simp only [Comparison.apply, Comparison.between, Value.greater, Value.lessEq, equal, below,
        ← Bool.decide_or, ← decide_not]
      exact decide_eq_decide.mpr (by omega)
  | lessEqual =>
      simp only [Comparison.apply, Comparison.between, Value.lessEq, equal, below,
        ← Bool.decide_or]
      exact decide_eq_decide.mpr (by omega)
  | greaterEqual =>
      simp only [Comparison.apply, Comparison.between, Value.greaterEq, below, ← decide_not]
      exact decide_eq_decide.mpr (by omega)

theorem apply_int (c : Comparison) (a b : Int32) :
    c.apply (.int a) (.int b) = c.between a.toInt b.toInt := by
  apply apply_eq_between
  · simp [Value.eq, Value.index, beq_eq_decide, Int32.toInt_inj]
  · simp [Value.less, Value.index, Int32.lt_iff_toInt_lt]

theorem apply_bigint (c : Comparison) (a b : Int64) :
    c.apply (.bigint a) (.bigint b) = c.between a.toInt b.toInt := by
  apply apply_eq_between
  · simp [Value.eq, Value.index, beq_eq_decide, Int64.toInt_inj]
  · simp [Value.less, Value.index, Int64.lt_iff_toInt_lt]

/-- Between two alternatives of the variant an operator sees their indices only. -/
theorem apply_index_ne {left right : Value} (other : left.index ≠ right.index) (c : Comparison) :
    c.apply left right = c.between left.index right.index := by
  apply apply_eq_between
  · simp [Value.eq, other]
  · simp [Value.less, other]

theorem apply_int_bigint (c : Comparison) (a : Int32) (b : Int64) :
    c.apply (.int a) (.bigint b) = c.between 1 2 := by
  have other : (Value.int a).index ≠ (Value.bigint b).index := show 1 ≠ 2 by decide
  exact apply_index_ne other c

theorem apply_bigint_int (c : Comparison) (a : Int64) (b : Int32) :
    c.apply (.bigint a) (.int b) = c.between 2 1 := by
  have other : (Value.bigint a).index ≠ (Value.int b).index := show 2 ≠ 1 by decide
  exact apply_index_ne other c

theorem apply_eq_between_iff {left right : Value} {a b : Int} (isLeft : left.integer? = some a)
    (isRight : right.integer? = some b) (c : Comparison) :
    c.apply left right = c.between a b ↔ MeetsWidths c left right a b := by
  cases left <;> cases isLeft <;> cases right <;> cases isRight <;> rename_i a b
  case int.refl.int.refl => simp [apply_int, MeetsWidths, Value.getType]
  case int.refl.bigint.refl =>
    rw [apply_int_bigint, ← Comparison.asIfLess_iff]
    simp [MeetsWidths, Value.getType]
  case bigint.refl.int.refl =>
    rw [apply_bigint_int, ← Comparison.asIfGreater_iff]
    simp [MeetsWidths, Value.getType]
  case bigint.refl.bigint.refl => simp [apply_bigint, MeetsWidths, Value.getType]

theorem Value.isNull_of_integer? {v : Value} {a : Int} (integer : v.integer? = some a) :
    v.isNull = false := by
  cases v with
  | null => cases integer
  | _ => rfl

/-- Two integers are compared as numbers exactly when they are held in one width or lie as the
operator takes an `INT` and a `BIGINT` to lie. -/
theorem compareValues_integers {left right : Value} {a b : Int} (isLeft : left.integer? = some a)
    (isRight : right.integer? = some b) (c : Comparison) :
    compareValues left c.symbol right = .ok (c.between a b) ↔ MeetsWidths c left right a b := by
  rw [compareValues_present (Value.isNull_of_integer? isLeft) (Value.isNull_of_integer? isRight),
    Except.ok.injEq]
  exact apply_eq_between_iff isLeft isRight c

theorem compareValues_integers_five : compareValues (.int 5) (ascii "<") (.bigint 7) = .ok true ↔
    MeetsWidths .less (.int 5) (.bigint 7) 5 7 :=
  @compareValues_integers (.int 5) (.bigint 7) 5 7 rfl rfl .less

/-- 5 as a `BIGINT` is not equal to 5 as an `INT`. -/
theorem bigint_five_ne_int_five : ¬ ∀ (left right : Value) (a b : Int) (c : Comparison),
    left.integer? = some a → right.integer? = some b →
      compareValues left c.symbol right = .ok (c.between a b) := by
  intro mathematical
  have equal := mathematical (.bigint 5) (.int 5) 5 5 .equal rfl rfl
  exact absurd equal (by decide)

/-! ## A `BIGINT` column and an integer literal -/

/-- A `BIGINT` column meets a literal that no `INT` holds as a number, and a smaller one only where
the operator may take the cell for the greater. -/
theorem evaluate_bigint_literal {row : Row} {columns : List ColumnDef} {name digits : Bytes}
    {val : Int64} (cell : evaluateIdentifier row columns name = .ok (.bigint val))
    (integer : IsInteger digits) (fits : digitsValue digits < 2 ^ 63) (c : Comparison) :
    evaluate row columns (.binary (.identifier name) c.symbol (.numberLiteral digits)) =
        .ok (c.between val.toInt (digitsValue digits)) ↔
      2 ^ 31 ≤ digitsValue digits ∨ c.AsIfGreater val.toInt (digitsValue digits) := by
  have compared : ∀ literal, evaluateNumber digits = .ok literal →
      evaluate row columns (.binary (.identifier name) c.symbol (.numberLiteral digits)) =
        compareValues (.bigint val) c.symbol literal := by
    intro literal number
    rw [evaluate, evaluateBinaryExpression_symbol, evaluateValue, evaluateValue, cell, number]
    rfl
  rw [evaluateNumber_digits integer, if_pos fits] at compared
  by_cases small : digitsValue digits < 2 ^ 31
  · rw [if_pos small] at compared
    rw [compared _ rfl, compareValues_present rfl rfl, Except.ok.injEq, apply_bigint_int,
      ← Comparison.asIfGreater_iff, or_iff_right (by omega)]
  · have value : (Int64.ofInt (digitsValue digits)).toInt = digitsValue digits :=
      Int64.toInt_ofInt_of_le (by omega) (by omega)
    rw [if_neg small] at compared
    rw [compared _ rfl, compareValues_present rfl rfl, apply_bigint, value]
    simp only [true_iff]
    omega

end TinySql
