import EventQuery.Numeric.Binary

set_option autoImplicit false

/-! Decimal numerals, the binary number nearest to one and the shortest one that denotes a
binary number. Rounding is done on natural numbers: the value is a quotient, its binary exponent
is found from the lengths of both sides, and the remainder decides the last bit, a tie going to
the even word. -/

namespace EventQuery

/-- A binary interchange format: the number of significant bits, the exponent of its smallest
positive number and the word of its infinity. -/
structure BinaryFormat where
  precision : Nat
  leastExponent : Int
  infinity : Nat

namespace BinaryFormat

def single : BinaryFormat := ⟨24, -149, 0x7f800000⟩

def double : BinaryFormat := ⟨53, -1074, 0x7ff0000000000000⟩

/-- The quotient rounded to the nearest integer, a tie to the even one. -/
def roundedQuotient (numerator denominator : Nat) : Nat :=
  let quotient := numerator / denominator
  let remainder := numerator % denominator
  if denominator < 2 * remainder || (2 * remainder = denominator && quotient % 2 = 1) then
    quotient + 1
  else
    quotient

def scaledQuotient (numerator denominator : Nat) : Int → Nat
  | .ofNat exponent => roundedQuotient numerator (denominator <<< exponent)
  | .negSucc exponent => roundedQuotient (numerator <<< (exponent + 1)) denominator

def reaches (numerator denominator : Nat) : Int → Bool
  | .ofNat exponent => denominator <<< exponent ≤ numerator
  | .negSucc exponent => denominator ≤ numerator <<< (exponent + 1)

/-- The word of the number nearest to a positive quotient. The words of a format grow with the
numbers that they stand for, so a carry out of the significant bits needs no care. -/
def nearestWord (format : BinaryFormat) (numerator denominator : Nat) : Nat :=
  let guess : Int := (Nat.log2 numerator : Int) - (Nat.log2 denominator : Int)
  let leading := if reaches numerator denominator guess then guess else guess - 1
  let exponent := max (leading - ((format.precision : Int) - 1)) format.leastExponent
  let word := (exponent - format.leastExponent).toNat <<< (format.precision - 1) +
    scaledQuotient numerator denominator exponent
  min word format.infinity

/-- The quotient that a word below infinity stands for. A word whose exponent field is zero has
no leading bit beside those that it shows, and the exponent of the field one. -/
def quotientOf (format : BinaryFormat) (word : Nat) : Nat × Nat :=
  let unit := 1 <<< (format.precision - 1)
  let field := word / unit
  let significand := if field = 0 then word else unit + word % unit
  match format.leastExponent + ((field - 1 : Nat) : Int) with
  | .ofNat exponent => (significand <<< exponent, 1)
  | .negSucc exponent => (significand, 1 <<< (exponent + 1))

def product (format : BinaryFormat) (left right : Nat) : Nat :=
  let left := format.quotientOf left
  let right := format.quotientOf right
  format.nearestWord (left.1 * right.1) (left.2 * right.2)

def quotient (format : BinaryFormat) (left right : Nat) : Nat :=
  let left := format.quotientOf left
  let right := format.quotientOf right
  format.nearestWord (left.1 * right.2) (left.2 * right.1)

end BinaryFormat

structure Decimal where
  digits : Nat
  exponent : Int
  deriving DecidableEq, Repr

namespace Decimal

def digitCount (number : Nat) : Nat :=
  (Nat.toDigits 10 number).length

/-- The word of the number nearest to a decimal numeral. Numerals beyond `10 ^ 400` or below
`10 ^ -400` lie outside every format, so no larger power of ten is ever formed. -/
def nearestWord (format : BinaryFormat) (decimal : Decimal) : Nat :=
  let magnitude := (digitCount decimal.digits : Int) + decimal.exponent
  if decimal.digits = 0 then
    0
  else if 400 < magnitude then
    format.infinity
  else if magnitude < -400 then
    0
  else
    match decimal.exponent with
    | .ofNat exponent => format.nearestWord (decimal.digits * Nat.pow 10 exponent) 1
    | .negSucc exponent => format.nearestWord decimal.digits (Nat.pow 10 (exponent + 1))

def nearestMultiple (numerator denominator : Nat) (exponent : Int) : Decimal :=
  match exponent with
  | .ofNat power =>
      ⟨BinaryFormat.roundedQuotient numerator (denominator * Nat.pow 10 power), exponent⟩
  | .negSucc power =>
      ⟨BinaryFormat.roundedQuotient (numerator * Nat.pow 10 (power + 1)) denominator, exponent⟩

def exactValue (word : Nat) : Decimal :=
  let (numerator, denominator) := BinaryFormat.double.quotientOf word
  let places := Nat.log2 denominator
  ⟨numerator * Nat.pow 5 places, -(places : Int)⟩

/-- A decimal numeral of few digits to which a word below infinity is the nearest. The power of
ten falls from that of the leading digit or the one above it; seventeen digits tell a double from
its neighbours, so the value in full is not needed, but it would be right as well. -/
def shortest (word : Nat) : Decimal :=
  let (numerator, denominator) := BinaryFormat.double.quotientOf word
  let leading : Int := (digitCount numerator : Int) - (digitCount denominator : Int)
  let candidates := (List.range 19).map (fun (offset : Nat) =>
    nearestMultiple numerator denominator (leading - (offset : Int)))
  if word = 0 then
    ⟨0, 0⟩
  else
    (candidates.find? (fun decimal => decimal.nearestWord .double = word)).getD (exactValue word)

end Decimal

end EventQuery
