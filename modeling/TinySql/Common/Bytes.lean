import Mathlib.Algebra.Group.Nat.Defs
import Mathlib.Data.List.Basic
import Mathlib.Data.List.TakeWhile

/-!
# Byte strings, numbers in text, exceptions

What the standard library contributes to the server: `std::string`, `std::to_string`, the integer
conversions `std::stoi` and `std::stoll`, and the exceptions that they and the server throw.
-/

namespace TinySql

/-- A `std::string` or a `std::vector<uint8_t>`. -/
abbrev Bytes := List UInt8

/-- The bytes of a string literal of the source. -/
def ascii (s : String) : Bytes := s.toList.map Char.toUInt8

/-- A thrown `std::exception`, with its `what()`. -/
inductive Exn where
  | runtimeError (what : Bytes)
  | invalidArgument (what : Bytes)
  | outOfRange (what : Bytes)
  /-- Not an exception of the source: a recursion of the model has used up its bound. -/
  | outOfFuel
  deriving DecidableEq, Repr

def Exn.what : Exn → Bytes
  | .runtimeError what | .invalidArgument what | .outOfRange what => what
  | .outOfFuel => []

/-- A decimal digit, as `Lexer::isDigit` and `strtol` see it. -/
def isDigit (b : UInt8) : Bool := '0'.toUInt8 ≤ b && b ≤ '9'.toUInt8

/-- `std::to_string` of a number that is not negative. -/
def natToString (n : Nat) : Bytes := (Nat.toDigits 10 n).map Char.toUInt8

/-- `std::to_string` of a signed integer. -/
def intToString (n : Int) : Bytes :=
  if n < 0 then '-'.toUInt8 :: natToString n.natAbs else natToString n.natAbs

def isSpace (b : UInt8) : Bool := b == ' '.toUInt8 || (9 ≤ b && b ≤ 13)

def digitsValue (digits : Bytes) : Nat :=
  digits.foldl (fun value d => 10 * value + (d.toNat - 48)) 0

/-- An optional sign in front of a number, and what follows it. -/
def splitSign : Bytes → Bool × Bytes
  | [] => (false, [])
  | b :: rest =>
      if b = '-'.toUInt8 then (true, rest)
      else if b = '+'.toUInt8 then (false, rest)
      else (false, b :: rest)

/-- `strtol` in base 10, before its range check: the longest prefix that is a number. -/
def strtol (s : Bytes) : Option Int :=
  let (negative, unsigned) := splitSign (s.dropWhile isSpace)
  let digits := unsigned.takeWhile isDigit
  if digits = [] then none
  else some (if negative then -(digitsValue digits : Int) else digitsValue digits)

def stoi (s : Bytes) : Except Exn Int32 :=
  match strtol s with
  | none => .error (.invalidArgument (ascii "stoi"))
  | some n =>
      if Int32.minValue.toInt ≤ n ∧ n ≤ Int32.maxValue.toInt then .ok (Int32.ofInt n)
      else .error (.outOfRange (ascii "stoi"))

def stoll (s : Bytes) : Except Exn Int64 :=
  match strtol s with
  | none => .error (.invalidArgument (ascii "stoll"))
  | some n =>
      if Int64.minValue.toInt ≤ n ∧ n ≤ Int64.maxValue.toInt then .ok (Int64.ofInt n)
      else .error (.outOfRange (ascii "stoll"))

/-! ## Digits -/

/-- A number literal without a sign and a decimal point. -/
def IsInteger (digits : Bytes) : Prop := digits ≠ [] ∧ ∀ b ∈ digits, isDigit b = true

theorem isDigit_iff {b : UInt8} : isDigit b = true ↔ 48 ≤ b.toNat ∧ b.toNat ≤ 57 := by
  rw [isDigit, Bool.and_eq_true, decide_eq_true_eq, decide_eq_true_eq, UInt8.le_iff_toNat_le,
    UInt8.le_iff_toNat_le]
  rfl

/-- The value of the digits that a text begins with. -/
def leadingNumber (s : Bytes) : Nat := digitsValue (s.takeWhile isDigit)

theorem leadingNumber_digits {digits : Bytes} (integer : IsInteger digits) :
    leadingNumber digits = digitsValue digits := by
  rw [leadingNumber, List.takeWhile_eq_self_iff.mpr integer.2]

theorem isSpace_of_isDigit {b : UInt8} (digit : isDigit b = true) : isSpace b = false := by
  obtain ⟨low, high⟩ := isDigit_iff.mp digit
  simp only [isSpace, Bool.or_eq_false_iff, beq_eq_false_iff_ne, Bool.and_eq_false_iff,
    decide_eq_false_iff_not, UInt8.le_iff_toNat_le, ne_eq, ← UInt8.toNat_inj]
  exact ⟨fun same => by rw [same] at low; exact absurd low (by decide), .inr fun small => by
    have : (13 : UInt8).toNat = 13 := rfl
    omega⟩

theorem strtol_digit {b : UInt8} {rest : Bytes} (digit : isDigit b = true) :
    strtol (b :: rest) = some (leadingNumber (b :: rest) : Int) := by
  obtain ⟨low, -⟩ := isDigit_iff.mp digit
  have noSign : splitSign (b :: rest) = (false, b :: rest) := by
    have minus : b ≠ '-'.toUInt8 := fun same => by rw [same] at low; exact absurd low (by decide)
    have plus : b ≠ '+'.toUInt8 := fun same => by rw [same] at low; exact absurd low (by decide)
    rw [splitSign, if_neg minus, if_neg plus]
  have some : (b :: rest).takeWhile isDigit ≠ [] := by simp [digit]
  rw [strtol, List.dropWhile_cons_of_neg (by simp [isSpace_of_isDigit digit]), noSign]
  simp only [Bool.false_eq_true, if_false]
  rw [if_neg some, leadingNumber]

theorem strtol_digits {digits : Bytes} (integer : IsInteger digits) :
    strtol digits = some (digitsValue digits : Int) := by
  rw [← leadingNumber_digits integer]
  obtain ⟨some, all⟩ := integer
  obtain ⟨b, rest, rfl⟩ := List.exists_cons_of_ne_nil some
  exact strtol_digit (all b List.mem_cons_self)

theorem stoi_number {s : Bytes} {n : Nat} (number : strtol s = some (n : Int)) : stoi s =
    if n < 2 ^ 31 then .ok (Int32.ofInt n) else .error (.outOfRange (ascii "stoi")) := by
  have least : Int32.minValue.toInt = -2147483648 := by decide
  have greatest : Int32.maxValue.toInt = 2147483647 := by decide
  rw [stoi, number]
  dsimp only
  rw [least, greatest]
  split_ifs <;> first | rfl | omega

theorem stoi_digits {digits : Bytes} (integer : IsInteger digits) : stoi digits =
    if digitsValue digits < 2 ^ 31 then .ok (Int32.ofInt (digitsValue digits))
    else .error (.outOfRange (ascii "stoi")) :=
  stoi_number (strtol_digits integer)

theorem stoll_digits {digits : Bytes} (integer : IsInteger digits) : stoll digits =
    if digitsValue digits < 2 ^ 63 then .ok (Int64.ofInt (digitsValue digits))
    else .error (.outOfRange (ascii "stoll")) := by
  have least : Int64.minValue.toInt = -9223372036854775808 := by decide
  have greatest : Int64.maxValue.toInt = 9223372036854775807 := by decide
  rw [stoll, strtol_digits integer]
  dsimp only
  rw [least, greatest]
  split_ifs <;> first | rfl | omega

/-! ## Printing a number -/

theorem toNat_digit {c : Char} (digit : c.isDigit = true) :
    c.toUInt8.toNat = c.toNat ∧ 48 ≤ c.toNat ∧ c.toNat ≤ 57 := by
  rw [Char.isDigit, Bool.and_eq_true, decide_eq_true_eq, decide_eq_true_eq] at digit
  have low : 48 ≤ c.toNat := UInt32.le_iff_toNat_le.mp digit.1
  have high : c.toNat ≤ 57 := UInt32.le_iff_toNat_le.mp digit.2
  have byte : c.toUInt8.toNat = c.toNat % 256 := UInt32.toNat_toUInt8 c.val
  omega

theorem natToString_isInteger (n : Nat) : IsInteger (natToString n) := by
  constructor
  · simp [natToString, Nat.toDigits_ne_nil]
  · intro b member
    obtain ⟨c, inside, rfl⟩ := List.mem_map.mp member
    obtain ⟨same, low, high⟩ :=
      toNat_digit (Nat.isDigit_of_mem_toDigits (by decide) (by decide) inside)
    rw [isDigit_iff]
    omega

theorem digitsValue_natToString (n : Nat) : digitsValue (natToString n) = n := by
  have digits : ∀ c ∈ Nat.toDigits 10 n, c.isDigit = true := fun c =>
    Nat.isDigit_of_mem_toDigits (by decide) (by decide)
  suffices fold : ∀ (cs : List Char) (value : Nat), (∀ c ∈ cs, c.isDigit = true) →
      (cs.map Char.toUInt8).foldl (fun value d => 10 * value + (d.toNat - 48)) value =
        Nat.ofDigitChars 10 cs value by
    rw [digitsValue, natToString, fold _ _ digits, Nat.ofDigitChars_ten_toDigits]
  intro cs
  induction cs with
  | nil => exact fun _ _ => rfl
  | cons c cs ih =>
      intro value all
      obtain ⟨first, rest⟩ := List.forall_mem_cons.mp all
      rw [List.map_cons, List.foldl_cons, ih _ rest, (toNat_digit first).1]
      rfl

end TinySql
