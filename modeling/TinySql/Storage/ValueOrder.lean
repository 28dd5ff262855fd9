import TinySql.Lib.Comparison
import TinySql.Storage.Value
import Mathlib.Data.List.Lex
import Mathlib.Data.Prod.Lex
import Mathlib.Algebra.Order.Ring.Int

/-!
# The order of values

Without floating-point numbers the values of all alternatives stand in one line: by their
alternative first, then by what they hold.
-/

namespace TinySql

/-- Bytes as `std::string` compares them. -/
abbrev byteOrder : LinearOrder UInt8 where
  le_refl := UInt8.le_refl
  le_trans _ _ _ := UInt8.le_trans
  le_antisymm _ _ := UInt8.le_antisymm
  le_total := UInt8.le_total
  lt_iff_le_not_ge a b := by
    rw [UInt8.not_le]
    exact ⟨fun below => ⟨UInt8.le_of_lt below, below⟩, And.right⟩
  toDecidableLE := inferInstance

attribute [local instance] byteOrder

namespace Value

def IsExact : Value → Prop
  | .float _ | .double _ => False
  | _ => True

def number : Value → Int
  | .int val => val.toInt
  | .bigint val => val.toInt
  | .bool val => val.toNat
  | _ => 0

def text : Value → Bytes
  | .string val => val
  | _ => []

def key (v : Value) : ℕ ×ₗ ℤ ×ₗ Bytes := toLex (v.index, toLex (v.number, v.text))

end Value

abbrev ExactValue := { v : Value // v.IsExact }

namespace ExactValue

theorem eq_key (a b : ExactValue) : a.val.eq b.val = true ↔ a.val.key = b.val.key := by
  obtain ⟨a, isExact⟩ := a
  obtain ⟨b, isExact'⟩ := b
  simp only [Value.key, toLex_inj, Prod.mk.injEq]
  cases a <;> cases isExact <;> cases b <;> cases isExact'
  case int.intro.int.intro a b =>
    simp [Value.eq, Value.index, Value.number, Value.text, Int32.toInt_inj]
  case bigint.intro.bigint.intro a b =>
    simp [Value.eq, Value.index, Value.number, Value.text, Int64.toInt_inj]
  case bool.intro.bool.intro a b => cases a <;> cases b <;> decide
  all_goals simp [Value.eq, Value.index, Value.number, Value.text]

theorem less_key (a b : ExactValue) : a.val.less b.val = true ↔ a.val.key < b.val.key := by
  obtain ⟨a, isExact⟩ := a
  obtain ⟨b, isExact'⟩ := b
  simp only [Value.key, Prod.Lex.toLex_lt_toLex]
  cases a <;> cases isExact <;> cases b <;> cases isExact'
  case int.intro.int.intro a b =>
    simp [Value.less, Value.index, Value.number, Value.text, Int32.lt_iff_toInt_lt]
  case bigint.intro.bigint.intro a b =>
    simp [Value.less, Value.index, Value.number, Value.text, Int64.lt_iff_toInt_lt]
  case bool.intro.bool.intro a b => cases a <;> cases b <;> decide
  all_goals simp [Value.less, Value.index, Value.number, Value.text]

end ExactValue

/-- Any two values other than floating-point numbers are ordered, whatever their alternatives. -/
theorem exactValues_ordered : ComparisonLaws (fun a b : ExactValue => a.val.eq b.val)
    (fun a b => a.val.less b.val) (fun a b => a.val.lessEq b.val)
    (fun a b => a.val.greater b.val) (fun a b => a.val.greaterEq b.val) :=
  .of_key (fun a => a.val.key) ExactValue.eq_key ExactValue.less_key (fun _ _ => rfl)
    (fun _ _ => rfl) fun _ _ => rfl

end TinySql
