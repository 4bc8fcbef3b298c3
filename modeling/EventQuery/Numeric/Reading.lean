import EventQuery.Numeric.Decimal

set_option autoImplicit false

/-! Numbers and truth values as they are written in text. Every reader takes the whole text:
a character that does not belong to the numeral makes the text unreadable. -/

namespace EventQuery.Numeric

/-- Splits off a sign; the first component says whether it was a minus. -/
def takeSign : List Char → Bool × List Char
  | '-' :: rest => (true, rest)
  | '+' :: rest => (false, rest)
  | text => (false, text)

def digitsValue (digits : List Char) : Nat :=
  digits.foldl (fun value digit => 10 * value + (digit.toNat - '0'.toNat)) 0

def readNat? (text : List Char) : Option Nat :=
  if !text.isEmpty && text.all Char.isDigit then some (digitsValue text) else none

def readInt? (text : List Char) : Option Int :=
  let (negative, digits) := takeSign text
  (readNat? digits).map (fun value => if negative then -(value : Int) else (value : Int))

def readInt32? (text : String) : Option Int32 :=
  match readInt? text.toList with
  | some value =>
      if Int32.minValue.toInt ≤ value && value ≤ Int32.maxValue.toInt then some (Int32.ofInt value)
      else none
  | none => none

def readInt64? (text : String) : Option Int64 :=
  match readInt? text.toList with
  | some value =>
      if Int64.minValue.toInt ≤ value && value ≤ Int64.maxValue.toInt then some (Int64.ofInt value)
      else none
  | none => none

/-- Reads digits around an optional point, then an optional exponent. Digits may be missing on
one side of the point but not on both. -/
def readDecimal? (text : List Char) : Option Decimal :=
  let whole := text.takeWhile Char.isDigit
  let (fraction, rest) :=
    match text.dropWhile Char.isDigit with
    | '.' :: rest => (rest.takeWhile Char.isDigit, rest.dropWhile Char.isDigit)
    | rest => ([], rest)
  if whole.isEmpty && fraction.isEmpty then
    none
  else
    let exponent? :=
      match rest with
      | [] => some 0
      | mark :: exponent => if mark = 'e' || mark = 'E' then readInt? exponent else none
    exponent?.map (fun exponent =>
      ⟨digitsValue (whole ++ fraction), exponent - (fraction.length : Int)⟩)

/-- The word of a real numeral: an infinity, a NaN or a decimal numeral, after an optional
sign. The named numbers are read in any case of their letters. -/
def readWord? (format : BinaryFormat) (text : String) : Option (Bool × Nat) :=
  let (negative, rest) := takeSign text.toList
  let lower := String.ofList (rest.map Char.toLower)
  if lower = "inf" || lower = "infinity" then
    some (negative, format.infinity)
  else if lower = "nan" then
    some (negative, format.infinity + 1 <<< (format.precision - 2))
  else
    (readDecimal? rest).map (fun decimal => (negative, decimal.nearestWord format))

def readBinary32? (text : String) : Option Binary32 :=
  (readWord? .single text).map (fun (negative, word) => .ofMagnitude negative word)

def readBinary64? (text : String) : Option Binary64 :=
  (readWord? .double text).map (fun (negative, word) => .ofMagnitude negative word)

def readBool? (text : String) : Option Bool :=
  if text = "true" then some true else if text = "false" then some false else none

end EventQuery.Numeric
