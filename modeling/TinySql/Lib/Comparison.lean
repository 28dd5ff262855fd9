import Mathlib.Order.Lattice

/-!
# Comparison operators

Operators that a program computes, against the linear order that they should come from.
-/

def ExactlyOne (p q r : Prop) : Prop := p ∧ ¬ q ∧ ¬ r ∨ ¬ p ∧ q ∧ ¬ r ∨ ¬ p ∧ ¬ q ∧ r

/-- The operators compare as those of a total order do. -/
structure ComparisonLaws {α : Type} (eq less lessEq greater greaterEq : α → α → Bool) : Prop where
  trichotomy : ∀ a b, ExactlyOne (less a b = true) (eq a b = true) (less b a = true)
  less_trans : ∀ a b c, less a b = true → less b c = true → less a c = true
  equivalence : Equivalence fun a b => eq a b = true
  less_congr : ∀ a a' b b', eq a a' = true → eq b b' = true → less a b = less a' b'
  lessEq_iff : ∀ a b, lessEq a b = !less b a
  greater_iff : ∀ a b, greater a b = less b a
  greaterEq_iff : ∀ a b, greaterEq a b = !less a b

section Key
variable {α β : Type} [LinearOrder β] {eq less lessEq greater greaterEq : α → α → Bool}

theorem exactlyOne_of_linear (x y : β) : ExactlyOne (x < y) (x = y) (y < x) := by
  rcases lt_trichotomy x y with below | rfl | above
  · exact .inl ⟨below, below.ne, below.not_gt⟩
  · exact .inr (.inl ⟨lt_irrefl x, rfl, lt_irrefl x⟩)
  · exact .inr (.inr ⟨above.not_gt, above.ne', above⟩)

/-- Operators that are computed from the equality and the order of some key. -/
theorem ComparisonLaws.of_key (key : α → β) (eq_key : ∀ a b, eq a b = true ↔ key a = key b)
    (less_key : ∀ a b, less a b = true ↔ key a < key b)
    (lessEq_eq : ∀ a b, lessEq a b = (less a b || eq a b))
    (greater_eq : ∀ a b, greater a b = !lessEq a b)
    (greaterEq_eq : ∀ a b, greaterEq a b = !less a b) :
    ComparisonLaws eq less lessEq greater greaterEq := by
  have lessEq_iff (a b : α) : lessEq a b = !less b a := by
    apply Bool.eq_iff_iff.mpr
    rw [lessEq_eq, Bool.or_eq_true, Bool.not_eq_true', ← Bool.not_eq_true, less_key, eq_key,
      less_key, not_lt, le_iff_lt_or_eq]
  constructor
  · intro a b
    rw [less_key, eq_key, less_key]
    exact exactlyOne_of_linear (key a) (key b)
  · intro a b c first second
    rw [less_key] at first second ⊢
    exact first.trans second
  · constructor
    · exact fun a => (eq_key a a).mpr rfl
    · exact fun same => (eq_key _ _).mpr ((eq_key _ _).mp same).symm
    · exact fun first second => (eq_key _ _).mpr (((eq_key _ _).mp first).trans ((eq_key _ _).mp second))
  · intro a a' b b' left right
    apply Bool.eq_iff_iff.mpr
    rw [less_key, less_key, (eq_key a a').mp left, (eq_key b b').mp right]
  · exact lessEq_iff
  · intro a b
    rw [greater_eq, lessEq_iff, Bool.not_not]
  · exact greaterEq_eq

end Key
