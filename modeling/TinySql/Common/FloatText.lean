import Mathlib.Data.Nat.Digits.Defs
import TinySql.Common.Float
import TinySql.Lib.NearestNumber

/-!
# Numbers that are printed and parsed

`strtod` takes the text that a stream prints in fixed notation, whatever number it is, and what it
makes of it is printed as the same text.
-/

namespace TinySql
open FloatingPoint

variable {f : Format} {digits tail : Bytes} {b : UInt8}

/-! ## Digits -/

theorem toLower_digit (digit : isDigit b = true) : toLower b = b := by
  obtain ⟨-, high⟩ := isDigit_iff.mp digit
  have letter : ('A'.toUInt8 ≤ b && b ≤ 'Z'.toUInt8) = false := by
    rw [Bool.and_eq_false_iff]
    left
    rw [decide_eq_false_iff_not, UInt8.le_iff_toNat_le, Nat.not_le]
    exact Nat.lt_of_le_of_lt high (by decide)
  rw [toLower, letter]
  rfl

theorem digitOf_digit (digit : isDigit b = true) : digitOf 10 b = some (b.toNat - 48) := by
  obtain ⟨low, high⟩ := isDigit_iff.mp digit
  rw [digitOf, toLower_digit digit, digit]
  simp only [if_true]
  rw [if_pos (by omega)]

theorem takeDigits_append (all : ∀ b ∈ digits, isDigit b = true)
    (stop : ∀ b ∈ tail.head?, digitOf 10 b = none) (value count : Nat) :
    takeDigits 10 value count (digits ++ tail) =
      (digits.foldl (fun value d => 10 * value + (d.toNat - 48)) value, count + digits.length,
        tail) := by
  induction digits generalizing value count with
  | nil =>
      cases tail with
      | nil => rfl
      | cons b rest => simp [takeDigits, stop b rfl]
  | cons b rest ih =>
      obtain ⟨first, later⟩ := List.forall_mem_cons.mp all
      rw [List.cons_append, takeDigits, digitOf_digit first]
      dsimp only
      rw [ih later, List.foldl_cons, List.length_cons]
      congr 2
      omega

/-- Digits behind others count for less by a power of ten. -/
theorem digitsValue_foldl (digits : Bytes) (value : Nat) :
    digits.foldl (fun value d => 10 * value + (d.toNat - 48)) value =
      value * 10 ^ digits.length + digitsValue digits := by
  induction digits generalizing value with
  | nil => simp [digitsValue]
  | cons b rest ih =>
      have first : digitsValue (b :: rest) = (10 * 0 + (b.toNat - 48)) * 10 ^ rest.length +
          digitsValue rest := ih _
      rw [List.foldl_cons, ih, first, List.length_cons, Nat.pow_succ]
      ring

/-- The places behind the point. -/
def fractionDigits (places n : Nat) : Bytes := (natToString n).leftpad places '0'.toUInt8

theorem length_fractionDigits {n places : Nat} (below : n < 10 ^ places) (some : 0 < places) :
    (fractionDigits places n).length = places := by
  have short : (natToString n).length ≤ places := by
    rw [natToString, List.length_map]
    exact Nat.toDigits_length 10 n places some below
  rw [fractionDigits, List.length_leftpad]
  exact max_eq_left short

theorem digitsValue_fractionDigits (places n : Nat) : digitsValue (fractionDigits places n) = n := by
  have zeros (k : Nat) : digitsValue (List.replicate k '0'.toUInt8) = 0 := by
    induction k with
    | zero => rfl
    | succ k ih =>
        rw [List.replicate_succ, digitsValue, List.foldl_cons]
        exact ih
  rw [fractionDigits, List.leftpad, digitsValue, List.foldl_append, ← digitsValue, zeros]
  exact digitsValue_natToString n

theorem isDigit_fractionDigits (places n : Nat) : ∀ b ∈ fractionDigits places n, isDigit b = true := by
  intro b member
  rcases List.mem_append.mp member with padding | inside
  · rw [List.eq_of_mem_replicate padding]
    decide
  · exact (natToString_isInteger n).2 b inside

/-! ## The text of a number -/

/-- The text of a number in steps of a power of ten. -/
def fixedDigits (places k : Nat) : Bytes :=
  natToString (k / 10 ^ places) ++ '.'.toUInt8 :: fractionDigits places (k % 10 ^ places)

theorem fixed_finite (places : Nat) (negative : Bool) (magnitude : Magnitude f) :
    fixed places (.finite negative magnitude) = (if negative then ascii "-" else []) ++
      fixedDigits places (nearestEven (magnitude.val * 10 ^ places) (2 ^ f.scale)) := by
  simp [fixed, fixedDigits, fractionDigits, ascii]

theorem takeMantissa_fixed {places : Nat} (some : 0 < places) (k : Nat) :
    takeMantissa 10 (fixedDigits places k) = .some (k, places, []) := by
  have below : k % 10 ^ places < 10 ^ places := Nat.mod_lt k (Nat.pow_pos (by decide))
  have first := @takeDigits_append _ ('.'.toUInt8 :: fractionDigits places (k % 10 ^ places))
    (natToString_isInteger (k / 10 ^ places)).2 (by rintro b ⟨⟩; decide) 0 0
  have second := @takeDigits_append _ [] (isDigit_fractionDigits places (k % 10 ^ places)) nofun
    (k / 10 ^ places) 0
  rw [List.append_nil, digitsValue_foldl, length_fractionDigits below some,
    digitsValue_fractionDigits, Nat.zero_add, Nat.div_add_mod'] at second
  rw [← digitsValue, digitsValue_natToString] at first
  rw [takeMantissa, fixedDigits, first]
  dsimp only
  rw [if_pos rfl, second]
  dsimp only
  rw [if_neg (by omega)]

/-- The text begins with a digit, and no `x` follows it. -/
theorem fixedDigits_head (places k : Nat) : ∃ b b' rest, fixedDigits places k = b :: b' :: rest ∧
    isDigit b = true ∧ toLower b' ≠ 'x'.toUInt8 := by
  obtain ⟨some, all⟩ := natToString_isInteger (k / 10 ^ places)
  rw [fixedDigits]
  cases whole : natToString (k / 10 ^ places) with
  | nil => exact absurd whole some
  | cons b rest =>
      rw [whole] at all
      obtain ⟨first, later⟩ := List.forall_mem_cons.mp all
      cases rest with
      | nil => exact ⟨b, _, _, rfl, first, by decide⟩
      | cons b' rest =>
          have second := later b' List.mem_cons_self
          refine ⟨b, b', _, rfl, first, ?_⟩
          rw [toLower_digit second]
          rintro rfl
          exact absurd second (by decide)

theorem specialNumber_digit (digit : isDigit b = true) (negative : Bool) (rest : Bytes) :
    specialNumber (f := f) negative (b :: rest) = none := by
  have other (letter : UInt8) (noDigit : isDigit letter = false) : letter ≠ b := by
    rintro rfl
    cases noDigit.symm.trans digit
  rw [specialNumber, List.map_cons, toLower_digit digit]
  simp [ascii, other 'i'.toUInt8 (by decide), other 'n'.toUInt8 (by decide)]

theorem unsignedRatio_fixed {places : Nat} (some : 0 < places) (k : Nat) :
    unsignedRatio (fixedDigits places k) = .some (k, 10 ^ places) := by
  obtain ⟨b, b', rest, text, -, noX⟩ := fixedDigits_head places k
  have decimal : (ascii "0x").isPrefixOf ((fixedDigits places k).map toLower) = false := by
    rw [text]
    simp [ascii, List.isPrefixOf, noX.symm]
  rw [unsignedRatio, decimal]
  simp only [Bool.false_eq_true, if_false, takeMantissa_fixed some, Option.map_some, takeExponent]
  have behind : (0 : Int) - places < 0 := by omega
  rw [scaleRatio, if_pos behind]
  simp

/-- The text is too fine for the format only where the format has no numbers of full precision left. -/
theorem not_underflows {steps : Nat} (fine : steps * 2 ^ (f.precision + 1) ≤ 4 * 2 ^ f.scale)
    (k : Nat) : f.underflows k steps = false := by
  rw [Format.underflows, Bool.and_eq_false_iff]
  cases k with
  | zero => simp
  | succ k =>
      right
      rw [decide_eq_false_iff_not, Nat.not_lt, Nat.mul_comm]
      refine fine.trans (Nat.le_trans ?_ (Nat.le_add_right _ _))
      rw [Nat.mul_le_mul_left_iff (by decide)]
      exact Nat.le_mul_of_pos_left _ (Nat.succ_pos k)

theorem splitSign_signed (negative : Bool) (digit : isDigit b = true) (rest : Bytes) :
    splitSign (((if negative then ascii "-" else []) ++ b :: rest).dropWhile isSpace) =
      (negative, b :: rest) := by
  cases negative with
  | true => rfl
  | false =>
      have other (sign : UInt8) (noDigit : isDigit sign = false) : b ≠ sign := by
        rintro rfl
        cases noDigit.symm.trans digit
      rw [if_neg Bool.false_ne_true, List.nil_append,
        List.dropWhile_cons_of_neg (by simp [isSpace_of_isDigit digit]), splitSign,
        if_neg (other _ (by decide)), if_neg (other _ (by decide))]

/-- What is printed can be parsed, and the number that it is parsed to is printed in the same way. -/
theorem strtod_fixed {places : Nat} (some : 0 < places) (wide : f.scale + f.precision ≤ f.top)
    (fine : 10 ^ places * 2 ^ (f.precision + 1) ≤ 4 * 2 ^ f.scale) (name : Bytes) (x : Number f) :
    ∃ y, strtod f name (fixed places x) = .ok y ∧ fixed places y = fixed places x := by
  cases x with
  | infinite negative => exact ⟨.infinite negative, by cases negative <;> rfl, rfl⟩
  | nan negative => exact ⟨.nan negative, by cases negative <;> rfl, rfl⟩
  | finite negative magnitude =>
      have ten : 0 < 10 ^ places := Nat.pow_pos (by decide)
      rw [fixed_finite]
      have back := nearestEven_roundUnits magnitude ten
      have below := roundUnits_lt wide magnitude ten
      generalize nearestEven (magnitude.val * 10 ^ places) (2 ^ f.scale) = k at back below ⊢
      obtain ⟨b, b', rest, text, digit, -⟩ := fixedDigits_head places k
      have special : specialNumber (f := f) negative (fixedDigits places k) = none := by
        rw [text, specialNumber_digit digit]
      have rounds : f.round negative k (10 ^ places) = .some (.finite negative
          ⟨_, below, roundUnits_significand f _ _⟩) := dif_pos below
      refine ⟨.finite negative ⟨_, below, roundUnits_significand f _ _⟩, ?_, ?_⟩
      · rw [strtod, text, splitSign_signed negative digit, ← text]
        simp only [special, unsignedRatio_fixed some, not_underflows fine, Bool.false_eq_true,
          if_false, rounds]
      · refine (fixed_finite _ _ _).trans ?_
        rw [back]

theorem stof_fixed (x : Single) : ∃ y, stof (fixed 2 x) = .ok y ∧ fixed 2 y = fixed 2 x :=
  strtod_fixed (by decide) (by decide) (by decide +kernel) _ x

theorem stod_fixed (x : Double) : ∃ y, stod (fixed 4 x) = .ok y ∧ fixed 4 y = fixed 4 x :=
  strtod_fixed (by decide) (by decide) (by decide +kernel) _ x

end TinySql
