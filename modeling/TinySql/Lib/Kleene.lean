import Mathlib.Tactic.TypeStar

/-!
# Three-valued logic

Kleene's strong connectives. To ask only whether a value is true loses UNKNOWN, and is still a
homomorphism for AND and OR.
-/

inductive Kleene where
  | false
  | unknown
  | true
  deriving DecidableEq, Repr

namespace Kleene

def and : Kleene → Kleene → Kleene
  | .false, _ | _, .false => .false
  | .true, .true => .true
  | _, _ => .unknown

def or : Kleene → Kleene → Kleene
  | .true, _ | _, .true => .true
  | .false, .false => .false
  | _, _ => .unknown

def ofBool (b : Bool) : Kleene := if b then .true else .false

def holds (t : Kleene) : Bool := t matches .true

@[simp] theorem holds_iff {t : Kleene} : t.holds = Bool.true ↔ t = .true := by
  cases t <;> decide

@[simp] theorem holds_and (a b : Kleene) : (a.and b).holds = (a.holds && b.holds) := by
  cases a <;> cases b <;> rfl

@[simp] theorem holds_or (a b : Kleene) : (a.or b).holds = (a.holds || b.holds) := by
  cases a <;> cases b <;> rfl

@[simp] theorem holds_ofBool (b : Bool) : (ofBool b).holds = b := by
  cases b <;> rfl

end Kleene
