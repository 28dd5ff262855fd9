import Mathlib.Algebra.Order.Field.Rat
import Mathlib.Data.Nat.Cast.Order.Field
import Mathlib.Data.Nat.Log
import Mathlib.Tactic.FieldSimp
import Mathlib.Tactic.Linarith
import Mathlib.Tactic.Positivity
import TinySql.Lib.FloatingPoint

/-!
# Rounding to a grid and back

Rounding to the nearest is determined by the distance alone, up to ties. A number of the format that
is rounded to a coarser or finer grid, and from there to the format again, may become another
number, but one that lies in the same place of the grid.
-/

namespace FloatingPoint

variable {num den num' den' n m : Nat} {x : ℚ}

/-- The natural number is nearest to `x`, and even in a tie. -/
structure NearestEven (x : ℚ) (n : Nat) : Prop where
  near : |x - n| ≤ 1 / 2
  tie : |x - n| = 1 / 2 → n % 2 = 0

theorem one_le_distance {n n' : Nat} (different : n ≠ n') : (1 : ℚ) ≤ |(n : ℚ) - n'| := by
  have apart : 1 ≤ |(n : Int) - n'| := Int.one_le_abs (by omega)
  exact_mod_cast apart

theorem distance_le (x : ℚ) (n n' : Nat) : |(n : ℚ) - n'| ≤ |x - n| + |x - n'| := by
  rw [abs_sub_comm x n]
  exact abs_sub_le (n : ℚ) x n'

theorem NearestEven.unique {n' : Nat} (first : NearestEven x n) (second : NearestEven x n') :
    n = n' := by
  by_contra different
  have apart := one_le_distance different
  have close := distance_le x n n'
  have tie : |x - n| = 1 / 2 := by linarith [first.near, second.near]
  have tie' : |x - n'| = 1 / 2 := by linarith [first.near, second.near]
  have even := first.tie tie
  have even' := second.tie tie'
  -- both are even, so they are two apart
  have far : 2 ≤ |(n : Int) - n'| := by
    rcases abs_cases ((n : Int) - n') with ⟨same, sign⟩ | ⟨same, sign⟩
    · rw [same]
      omega
    · rw [same]
      omega
  have far : (2 : ℚ) ≤ |(n : ℚ) - n'| := by exact_mod_cast far
  linarith

theorem NearestEven.nearest (near : NearestEven x n) (n' : Nat) : |x - n| ≤ |x - n'| := by
  by_cases same : n = n'
  · rw [same]
  · linarith [one_le_distance same, distance_le x n n', near.near]

section Fraction
variable {r : ℚ} (q : Nat)

theorem nearestEven_below (nonneg : 0 ≤ r) (below : r < 1 / 2) : NearestEven (q + r) q := by
  have distance : |q + r - q| = r := by rw [add_sub_cancel_left, abs_of_nonneg nonneg]
  constructor
  · rw [distance]
    exact below.le
  · rw [distance]
    exact fun tie => absurd tie below.ne

theorem nearestEven_above (above : 1 / 2 < r) (rest : r < 1) :
    NearestEven (q + r) (q + 1 : Nat) := by
  have distance : |q + r - (q + 1 : Nat)| = 1 - r := by
    rw [Nat.cast_add, Nat.cast_one, add_sub_add_left_eq_sub, abs_of_neg (by linarith), neg_sub]
  constructor
  · rw [distance]
    linarith
  · rw [distance]
    exact fun tie => absurd tie (by linarith)

theorem nearestEven_half (half : r = 1 / 2) : NearestEven (q + r) (q + q % 2 : Nat) := by
  constructor
  · rw [half]
    rcases Nat.mod_two_eq_zero_or_one q with even | odd
    · rw [even]
      norm_num
    · rw [odd]
      norm_num [add_sub_add_left_eq_sub]
  · intro _
    omega

end Fraction

theorem nearestEven_near (num : Nat) (positive : 0 < den) :
    NearestEven ((num : ℚ) / den) (nearestEven num den) := by
  have positive' : (0 : ℚ) < den := by exact_mod_cast positive
  have split : (num : ℚ) / den = (num / den : Nat) + ((num % den : Nat) : ℚ) / den := by
    rw [div_eq_iff positive'.ne', add_mul, div_mul_cancel₀ _ positive'.ne']
    exact_mod_cast (Nat.div_add_mod' num den).symm
  rw [split, nearestEven]
  split_ifs with low high
  · apply nearestEven_below _ (by positivity)
    rw [div_lt_div_iff₀ positive' two_pos, one_mul, mul_comm]
    exact_mod_cast low
  · apply nearestEven_above
    · rw [div_lt_div_iff₀ two_pos positive', one_mul, mul_comm]
      exact_mod_cast high
    · rw [div_lt_one positive']
      exact_mod_cast Nat.mod_lt num positive
  · apply nearestEven_half
    rw [div_eq_div_iff positive'.ne' two_ne_zero, one_mul, mul_comm]
    exact_mod_cast Nat.le_antisymm (Nat.not_lt.mp high) (Nat.not_lt.mp low)

/-- What lies no further from the grid point than what has been rounded to it is rounded to it as
well. -/
theorem nearestEven_of_nearer (positive : 0 < den) (positive' : 0 < den')
    (nearer : |(num' : ℚ) / den' - nearestEven num den| ≤ |(num : ℚ) / den - nearestEven num den|) :
    nearestEven num' den' = nearestEven num den := by
  have first := nearestEven_near num positive
  apply (nearestEven_near num' positive').unique
  constructor
  · exact nearer.trans first.near
  · intro tie
    exact first.tie (le_antisymm first.near (tie.symm.trans_le nearer))

/-! ## Rounding to the format -/

theorem scaled_distance (x : ℚ) (j grid : Nat) (positive : 0 < grid) :
    |x - (j * grid : Nat)| = |x / grid - j| * grid := by
  have positive' : (0 : ℚ) < grid := by exact_mod_cast positive
  rw [← abs_of_pos positive', ← abs_mul, sub_mul, abs_of_pos positive', div_mul_cancel₀ _ positive'.ne',
    Nat.cast_mul]

theorem roundUnits_grid (f : Format) (num : Nat) (positive : 0 < den) (j : Nat) :
    |(num : ℚ) / den - f.roundUnits num den| ≤
      |(num : ℚ) / den - (j * 2 ^ f.spareBits (num / den) : Nat)| := by
  have grid := Nat.two_pow_pos (f.spareBits (num / den))
  have near := nearestEven_near num (Nat.mul_pos positive grid)
  rw [Format.roundUnits, scaled_distance _ _ _ grid, scaled_distance _ _ _ grid]
  apply mul_le_mul_of_nonneg_right _ (Nat.cast_nonneg _)
  rw [div_div, ← Nat.cast_mul]
  exact near.nearest j

/-- No number of the format is nearer, whether it is too large or not. -/
theorem roundUnits_nearest (f : Format) (num : Nat) (positive : 0 < den) {significand exponent : Nat}
    (short : significand < 2 ^ f.precision) :
    |(num : ℚ) / den - f.roundUnits num den| ≤
      |(num : ℚ) / den - (significand * 2 ^ exponent : Nat)| := by
  by_cases fine : f.spareBits (num / den) ≤ exponent
  · have multiple : significand * 2 ^ exponent =
        significand * 2 ^ (exponent - f.spareBits (num / den)) * 2 ^ f.spareBits (num / den) := by
      rw [mul_assoc, ← Nat.pow_add, Nat.sub_add_cancel fine]
    rw [multiple]
    exact roundUnits_grid f num positive _
  · -- a number that is too fine for the grid lies below its first point with a full significand
    have spare : f.precision - 1 + f.spareBits (num / den) = (num / den).log2 := by
      have bits := f.positive
      unfold Format.spareBits at fine ⊢
      omega
    have some : num / den ≠ 0 := by
      intro zero
      have bits := f.positive
      rw [Format.spareBits, zero, Nat.log2_zero] at fine
      omega
    have below : significand * 2 ^ exponent ≤ 2 ^ (f.precision - 1) * 2 ^ f.spareBits (num / den) := by
      have wide : significand * 2 ^ exponent ≤ 2 ^ f.precision * 2 ^ exponent :=
        Nat.mul_le_mul_right _ short.le
      have bits := f.positive
      rw [← Nat.pow_add] at wide ⊢
      exact wide.trans (Nat.pow_le_pow_right two_pos (by omega))
    have point : 2 ^ (f.precision - 1) * 2 ^ f.spareBits (num / den) ≤ num / den := by
      rw [← Nat.pow_add, spare]
      exact Nat.log2_self_le some
    have floor : ((num / den : Nat) : ℚ) ≤ (num : ℚ) / den := Nat.cast_div_le
    have below' : ((significand * 2 ^ exponent : Nat) : ℚ) ≤
        (2 ^ (f.precision - 1) * 2 ^ f.spareBits (num / den) : Nat) := by exact_mod_cast below
    have point' : ((2 ^ (f.precision - 1) * 2 ^ f.spareBits (num / den) : Nat) : ℚ) ≤
        (num : ℚ) / den := le_trans (by exact_mod_cast point) floor
    calc |(num : ℚ) / den - f.roundUnits num den|
        ≤ |(num : ℚ) / den - (2 ^ (f.precision - 1) * 2 ^ f.spareBits (num / den) : Nat)| :=
          roundUnits_grid f num positive _
      _ = (num : ℚ) / den - (2 ^ (f.precision - 1) * 2 ^ f.spareBits (num / den) : Nat) :=
          abs_of_nonneg (sub_nonneg.mpr point')
      _ ≤ (num : ℚ) / den - (significand * 2 ^ exponent : Nat) := sub_le_sub_left below' _
      _ = |(num : ℚ) / den - (significand * 2 ^ exponent : Nat)| :=
          (abs_of_nonneg (sub_nonneg.mpr (below'.trans point'))).symm

/-! ## A number on the grid, and back -/

variable {f : Format}

/-- The distances in steps of a grid with `steps` points to the unit. -/
theorem step_distance (units : Nat) (k : Nat) {steps unit : Nat} (positive : 0 < steps)
    (positive' : 0 < unit) : |((units * steps : Nat) : ℚ) / unit - k| =
      |((k * unit : Nat) : ℚ) / steps - units| * (steps / unit) := by
  have positive : (0 : ℚ) < steps := by exact_mod_cast positive
  have positive' : (0 : ℚ) < unit := by exact_mod_cast positive'
  rw [← abs_of_pos (div_pos positive positive'), ← abs_mul, abs_sub_comm]
  congr 1
  push_cast
  field_simp

/-- Rounding a point of the grid to the format leaves it the nearest point. -/
theorem nearestEven_roundUnits (magnitude : Magnitude f) {steps : Nat} (positive : 0 < steps) :
    nearestEven (f.roundUnits (nearestEven (magnitude.val * steps) (2 ^ f.scale) * 2 ^ f.scale) steps
        * steps) (2 ^ f.scale) =
      nearestEven (magnitude.val * steps) (2 ^ f.scale) := by
  obtain ⟨units, -, significand, exponent, short, rfl⟩ := magnitude
  have unit := Nat.two_pow_pos f.scale
  apply nearestEven_of_nearer unit unit
  rw [step_distance _ _ positive unit, step_distance _ _ positive unit]
  apply mul_le_mul_of_nonneg_right _ (by positivity)
  exact roundUnits_nearest f _ positive short

/-- A point of the grid is at most half a step from the number that has been rounded to it. -/
theorem half_step {units k steps unit : Nat} (near : NearestEven (((units * steps : Nat) : ℚ) / unit) k)
    (positive : 0 < steps) (positive' : 0 < unit) :
    |((k * unit : Nat) : ℚ) / steps - units| ≤ unit / 2 := by
  have half := near.near
  have unit' : (0 : ℚ) < unit := by exact_mod_cast positive'
  have one : (1 : ℚ) ≤ steps := by exact_mod_cast positive
  rw [step_distance _ _ positive positive', ← le_div_iff₀ (by positivity)] at half
  refine half.trans ?_
  rw [div_div_eq_mul_div, one_div_mul_eq_div]
  exact div_le_self (by positivity) one

theorem le_add_of_nearer {n' : Nat} (half : |x - n| ≤ (m : ℚ) / 2) (nearer : |x - n'| ≤ |x - n|) :
    n' ≤ n + m := by
  have apart := distance_le x n' n
  have bound : (n' : ℚ) ≤ (n + m : Nat) := by
    push_cast
    linarith [le_abs_self ((n' : ℚ) - n)]
  exact_mod_cast bound

theorem nearestEven_whole (whole steps : Nat) {unit : Nat} (positive : 0 < unit) :
    nearestEven (whole * unit * steps) unit = whole * steps := by
  have unit' : (unit : ℚ) ≠ 0 := by positivity
  have near := nearestEven_near (whole * unit * steps) positive
  have exact_ : ((whole * unit * steps : Nat) : ℚ) / unit = (whole * steps : Nat) := by
    rw [div_eq_iff unit']
    push_cast
    ring
  rw [exact_] at near
  apply near.unique
  constructor <;> norm_num

/-- The large numbers of a format are whole, if it is at least as wide as its fraction. -/
theorem whole_of_large (wide : f.scale + f.precision ≤ f.top) {significand exponent : Nat}
    (short : significand < 2 ^ f.precision) (large : 2 ^ (f.top - 1) ≤ significand * 2 ^ exponent) :
    ∃ whole, significand * 2 ^ exponent = whole * 2 ^ f.scale := by
  have bits := f.positive
  have bound : 2 ^ (f.top - 1) < 2 ^ (f.precision + exponent) := by
    rw [Nat.pow_add]
    exact large.trans_lt (Nat.mul_lt_mul_of_pos_right short (Nat.two_pow_pos _))
  have := (Nat.pow_lt_pow_iff_right one_lt_two).mp bound
  have high : f.scale ≤ exponent := by omega
  refine ⟨significand * 2 ^ (exponent - f.scale), ?_⟩
  rw [mul_assoc, ← Nat.pow_add, Nat.sub_add_cancel high]

/-- The format has room for every point next to one of its numbers, if it is at least as wide as its
fraction. -/
theorem roundUnits_lt (wide : f.scale + f.precision ≤ f.top) (magnitude : Magnitude f) {steps : Nat}
    (positive : 0 < steps) :
    f.roundUnits (nearestEven (magnitude.val * steps) (2 ^ f.scale) * 2 ^ f.scale) steps <
      2 ^ f.top := by
  have unit := Nat.two_pow_pos f.scale
  have bits := f.positive
  obtain ⟨units, below, significand, exponent, short, written⟩ := magnitude
  have nearer := @roundUnits_nearest _ f
    (nearestEven (units * steps) (2 ^ f.scale) * 2 ^ f.scale) positive _ exponent short
  rw [← written] at nearer
  dsimp only
  rcases Nat.lt_or_ge units (2 ^ (f.top - 1)) with small | large
  · have bound :=
      le_add_of_nearer (half_step (nearestEven_near (units * steps) unit) positive unit) nearer
    have room : 2 ^ f.scale ≤ 2 ^ (f.top - 1) := Nat.pow_le_pow_right two_pos (by omega)
    have double : 2 ^ f.top = 2 ^ (f.top - 1) + 2 ^ (f.top - 1) := by
      rw [← Nat.two_mul, ← Nat.pow_succ', Nat.succ_eq_add_one, Nat.sub_add_cancel (by omega)]
    omega
  · -- the number is whole, and so it is a point of the grid itself
    obtain ⟨whole, same⟩ := whole_of_large wide short (written ▸ large)
    obtain rfl : units = whole * 2 ^ f.scale := written.trans same
    rw [nearestEven_whole _ _ unit] at nearer ⊢
    have steps' : (steps : ℚ) ≠ 0 := by positivity
    have back : ((whole * steps * 2 ^ f.scale : Nat) : ℚ) / steps = (whole * 2 ^ f.scale : Nat) := by
      rw [div_eq_iff steps']
      push_cast
      ring
    rw [back, sub_self, abs_zero] at nearer
    have same := sub_eq_zero.mp (abs_nonpos_iff.mp nearer)
    have exact_ : whole * 2 ^ f.scale = f.roundUnits (whole * steps * 2 ^ f.scale) steps := by
      exact_mod_cast same
    rw [← exact_]
    exact below

end FloatingPoint
