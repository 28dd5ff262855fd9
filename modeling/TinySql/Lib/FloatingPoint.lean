import Mathlib.Data.Nat.Basic
import Mathlib.Tactic.Ring

/-!
# Binary floating-point numbers

Every finite number of a binary format is a whole multiple of its smallest positive number, so a
magnitude is kept as that multiple, together with the proof that the format has it. Rounding takes
a ratio of natural numbers to the nearest magnitude, to the even one in a tie.
-/

namespace FloatingPoint

/-- A binary format: bits of the significand, and the exponents of the smallest positive number
and of the magnitudes that are too large, both counted downwards from 1. -/
structure Format where
  precision : Nat
  scale : Nat
  top : Nat
  positive : 0 < precision

/-- IEEE 754 binary32. -/
def single : Format := ⟨24, 149, 277, by decide⟩

/-- IEEE 754 binary64. -/
def double : Format := ⟨53, 1074, 2098, by decide⟩

def Representable (f : Format) (units : Nat) : Prop :=
  units < 2 ^ f.top ∧ ∃ significand exponent,
    significand < 2 ^ f.precision ∧ units = significand * 2 ^ exponent

def Magnitude (f : Format) := { units : Nat // Representable f units }

instance (f : Format) : DecidableEq (Magnitude f) :=
  inferInstanceAs (DecidableEq { units : Nat // Representable f units })

inductive Number (f : Format) where
  | finite (negative : Bool) (magnitude : Magnitude f)
  | infinite (negative : Bool)
  | nan (negative : Bool)
  deriving DecidableEq

/-! ## Comparison -/

/-- The number in units of the smallest positive one; infinities lie outside the finite ones. -/
def Number.signedUnits {f : Format} : Number f → Option Int
  | .finite negative magnitude => some (if negative then -(magnitude.val : Int) else magnitude.val)
  | .infinite negative => some (if negative then -(2 ^ f.top : Nat) else (2 ^ f.top : Nat))
  | .nan _ => none

def Number.eq {f : Format} (a b : Number f) : Bool :=
  match a.signedUnits, b.signedUnits with
  | some m, some n => m = n
  | _, _ => false

def Number.less {f : Format} (a b : Number f) : Bool :=
  match a.signedUnits, b.signedUnits with
  | some m, some n => m < n
  | _, _ => false

/-! ## Rounding -/

/-- The natural number nearest to a ratio, the even one in a tie. -/
def nearestEven (num den : Nat) : Nat :=
  let quotient := num / den
  let remainder := num % den
  if 2 * remainder < den then quotient
  else if den < 2 * remainder then quotient + 1
  else quotient + quotient % 2

/-- The number of low bits that a magnitude of this size cannot use. -/
def Format.spareBits (f : Format) (units : Nat) : Nat := units.log2 + 1 - f.precision

/-- The nearest multiple that the precision allows, whatever its size. -/
def Format.roundUnits (f : Format) (num den : Nat) : Nat :=
  nearestEven num (den * 2 ^ f.spareBits (num / den)) * 2 ^ f.spareBits (num / den)

theorem nearestEven_le (num den : Nat) : nearestEven num den ≤ num / den + 1 := by
  unfold nearestEven
  dsimp only
  split_ifs <;> omega

theorem roundUnits_significand (f : Format) (num den : Nat) : ∃ significand exponent,
    significand < 2 ^ f.precision ∧ f.roundUnits num den = significand * 2 ^ exponent := by
  have short : num / (den * 2 ^ f.spareBits (num / den)) < 2 ^ f.precision := by
    rw [← Nat.div_div_eq_div_mul, Nat.div_lt_iff_lt_mul (Nat.two_pow_pos _), ← Nat.pow_add]
    refine Nat.lt_of_lt_of_le Nat.lt_log2_self (Nat.pow_le_pow_right (by decide) ?_)
    unfold Format.spareBits
    omega
  have bound := nearestEven_le num (den * 2 ^ f.spareBits (num / den))
  rcases Nat.lt_or_eq_of_le (bound.trans short) with below | carried
  · exact ⟨_, _, below, rfl⟩
  · -- the significand has grown by one bit: it is a power of two
    have positive := f.positive
    refine ⟨2 ^ (f.precision - 1), f.spareBits (num / den) + 1, ?_, ?_⟩
    · exact Nat.pow_lt_pow_right (by decide) (by omega)
    · rw [Format.roundUnits, carried, ← Nat.pow_add, ← Nat.pow_add]
      congr 1
      omega

/-- The finite number nearest to a ratio, unless it is too large for the format. -/
def Format.round (f : Format) (negative : Bool) (num den : Nat) : Option (Number f) :=
  let units := f.roundUnits (num * 2 ^ f.scale) den
  if below : units < 2 ^ f.top then
    some (.finite negative ⟨units, below, roundUnits_significand f _ den⟩)
  else none

/-- A ratio that the format can only approximate by a number with less than full precision. -/
def Format.underflows (f : Format) (num den : Nat) : Bool :=
  let scaled := num * 2 ^ f.scale
  scaled % den ≠ 0 && 4 * scaled + den < 2 ^ (f.precision + 1) * den

end FloatingPoint
