import EventQuery.Numeric.Reading

set_option autoImplicit false

/-! The numbers of a document. An integer of at most 64 bits is kept as it is. Every other number
becomes a double by way of a significand of at most 64 bits, which is scaled by a power of ten.
Each of these steps rounds, so the double lies near the number that is written but need not be
the nearest one. -/

namespace EventQuery

inductive Numeral where
  /-- An integer between the least signed and the greatest unsigned one of 64 bits. -/
  | integer (value : Int)
  | real (value : Binary64)
  deriving DecidableEq, Repr

namespace Numeral

/-- Appends digits to a significand up to the first one with which it would exceed 64 bits. The
second component is the number of digits that are left out. -/
def appendDigits : Nat → List Char → Nat × Nat
  | significand, [] => (significand, 0)
  | significand, digit :: digits =>
      let longer := 10 * significand + (digit.toNat - '0'.toNat)
      if longer ≤ 0xffffffffffffffff then
        appendDigits longer digits
      else
        (significand, digits.length + 1)

def powerLimit : Nat := 308

def powerWord (power : Nat) : Nat :=
  Decimal.nearestWord .double ⟨1, power⟩

/-- The word of a significand of at most 64 bits times a power of ten; `none` if it is too large
for a double. The significand and each product or quotient are rounded. Two divisions by the
greatest power leave nothing of a significand, so no third one is made. -/
def scaledWord? (significand : Nat) (exponent : Int) : Option Nat :=
  let word := BinaryFormat.double.nearestWord significand 1
  if significand = 0 then
    some 0
  else
    match exponent with
    | .ofNat power =>
        if power ≤ powerLimit then
          let scaled := BinaryFormat.double.product word (powerWord power)
          if scaled = BinaryFormat.double.infinity then none else some scaled
        else
          none
    | .negSucc less =>
        let power := less + 1
        if power ≤ powerLimit then
          some (BinaryFormat.double.quotient word (powerWord power))
        else if power ≤ 2 * powerLimit then
          let reduced := BinaryFormat.double.quotient word (powerWord powerLimit)
          some (BinaryFormat.double.quotient reduced (powerWord (power - powerLimit)))
        else
          some 0

def real? (negative : Bool) (significand : Nat) (exponent : Int) : Option Numeral :=
  (scaledWord? significand exponent).map (fun word => .real (.ofMagnitude negative word))

/-- A number without fraction and exponent. Zero with a minus is the negative zero, which is no
integer; digits that do not fit the significand count as zeros. -/
def ofWhole? (negative : Bool) (digits : List Char) : Option Numeral :=
  let (significand, omitted) := appendDigits 0 digits
  if omitted = 0 && !negative then
    some (.integer significand)
  else if omitted = 0 && 0 < significand && significand ≤ 0x8000000000000000 then
    some (.integer (-(significand : Int)))
  else
    real? negative significand omitted

/-- A number with a fraction or an exponent. The fraction goes on where the whole digits have
filled the significand, even if some of those were left out. -/
def ofParts? (negative : Bool) (whole fraction : List Char) (exponent : Int) : Option Numeral :=
  let (significand, omitted) := appendDigits 0 whole
  let (significand, ignored) := appendDigits significand fraction
  let places := fraction.length - ignored
  real? negative significand ((omitted : Int) - (places : Int) + exponent)

end Numeral

end EventQuery
