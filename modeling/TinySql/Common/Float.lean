import TinySql.Common.Bytes
import TinySql.Lib.FloatingPoint

/-!
# `float` and `double` in text

`std::stof` and `std::stod` as `strtof` and `strtod` define them, and the fixed notation of an
output stream.
-/

namespace TinySql
open FloatingPoint

abbrev Single := Number single

abbrev Double := Number double

/-! ## Parsing -/

def toLower (b : UInt8) : UInt8 := if 'A'.toUInt8 ≤ b && b ≤ 'Z'.toUInt8 then b + 32 else b

def digitOf (base : Nat) (b : UInt8) : Option Nat :=
  let b := toLower b
  let value :=
    if isDigit b then b.toNat - 48
    else if 'a'.toUInt8 ≤ b && b ≤ 'z'.toUInt8 then b.toNat - 87
    else base
  if value < base then some value else none

/-- Take digits as long as there are any: their value behind `value`, and their number. -/
def takeDigits (base : Nat) (value count : Nat) : Bytes → Nat × Nat × Bytes
  | [] => (value, count, [])
  | b :: rest =>
      match digitOf base b with
      | some d => takeDigits base (base * value + d) (count + 1) rest
      | none => (value, count, b :: rest)

/-- Digits with an optional point: their value, how many stand behind the point, and the rest. -/
def takeMantissa (base : Nat) (s : Bytes) : Option (Nat × Nat × Bytes) :=
  let (whole, count, rest) := takeDigits base 0 0 s
  match rest with
  | b :: fraction =>
      if b = '.'.toUInt8 then
        let (value, places, rest) := takeDigits base whole 0 fraction
        if count + places = 0 then none else some (value, places, rest)
      else if count = 0 then none
      else some (whole, 0, rest)
  | [] => if count = 0 then none else some (whole, 0, rest)

/-- The exponent behind its mark, zero when there is none. -/
def takeExponent (mark : UInt8) (s : Bytes) : Int :=
  match s with
  | b :: rest =>
      if toLower b = mark then
        let (negative, unsigned) := splitSign rest
        let (value, count, _) := takeDigits 10 0 0 unsigned
        if count = 0 then 0 else if negative then -(value : Int) else value
      else 0
  | [] => 0

/-- `value * base ^ exponent`, as a ratio. -/
def scaleRatio (value base : Nat) (exponent : Int) : Nat × Nat :=
  if exponent < 0 then (value, base ^ exponent.natAbs) else (value * base ^ exponent.natAbs, 1)

/-- The words for the numbers that are not finite. -/
def specialNumber {f : Format} (negative : Bool) (s : Bytes) : Option (Number f) :=
  let word := s.map toLower
  if (ascii "inf").isPrefixOf word then some (.infinite negative)
  else if (ascii "nan").isPrefixOf word then some (.nan negative)
  else none

/-- The ratio that a number without sign denotes. -/
def unsignedRatio (s : Bytes) : Option (Nat × Nat) :=
  let hexadecimal :=
    if (ascii "0x").isPrefixOf (s.map toLower) then takeMantissa 16 (s.drop 2) else none
  match hexadecimal with
  | some (value, places, rest) =>
      some (scaleRatio value 2 (takeExponent 'p'.toUInt8 rest - 4 * places))
  | none =>
      (takeMantissa 10 s).map fun (value, places, rest) =>
        scaleRatio value 10 (takeExponent 'e'.toUInt8 rest - places)

/-- `strtod`, or `strtof`, with what the standard library throws when it converts nothing or
reports that the number is out of range. -/
def strtod (f : Format) (name s : Bytes) : Except Exn (Number f) :=
  let (negative, unsigned) := splitSign (s.dropWhile isSpace)
  match specialNumber negative unsigned, unsignedRatio unsigned with
  | some x, _ => .ok x
  | none, none => .error (.invalidArgument name)
  | none, some (num, den) =>
      if f.underflows num den then .error (.outOfRange name)
      else
        match f.round negative num den with
        | some x => .ok x
        | none => .error (.outOfRange name)

def stof (s : Bytes) : Except Exn Single := strtod single (ascii "stof") s

def stod (s : Bytes) : Except Exn Double := strtod double (ascii "stod") s

/-! ## Printing and testing -/

/-- `std::fixed << std::setprecision(places)`, for at least one place. -/
def fixed {f : Format} (places : Nat) (x : Number f) : Bytes :=
  let sign (negative : Bool) := if negative then ascii "-" else []
  match x with
  | .finite negative magnitude =>
      let scaled := nearestEven (magnitude.val * 10 ^ places) (2 ^ f.scale)
      let fraction := natToString (scaled % 10 ^ places)
      sign negative ++ natToString (scaled / 10 ^ places) ++ ascii "." ++
        fraction.leftpad places '0'.toUInt8
  | .infinite negative => sign negative ++ ascii "inf"
  | .nan negative => sign negative ++ ascii "nan"

/-- `std::fabs(x) > 1e-9`, where the literal is a `double`. -/
def nonZero {f : Format} (x : Number f) : Bool :=
  match x with
  | .finite _ magnitude =>
      double.roundUnits (2 ^ double.scale) (10 ^ 9) < magnitude.val * 2 ^ (double.scale - f.scale)
  | .infinite _ => true
  | .nan _ => false

example : (stod (ascii " -12.34568e0x")).map (fixed 4) = .ok (ascii "-12.3457") := by
  decide +kernel

end TinySql
