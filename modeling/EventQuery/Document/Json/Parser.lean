import EventQuery.Document.Json

set_option autoImplicit false

/-! Reading JSON text. The whole text must be one value between white space; there are no
comments, no trailing commas and no leading zeros. -/

namespace EventQuery.JsonText

def isJsonBlank (character : Char) : Bool :=
  character = ' ' || character = '\t' || character = '\n' || character = '\r'

def skipBlank (text : List Char) : List Char :=
  text.dropWhile isJsonBlank

def hexDigit? (character : Char) : Option Nat :=
  if '0' ≤ character && character ≤ '9' then some (character.toNat - '0'.toNat)
  else if 'a' ≤ character && character ≤ 'f' then some (character.toNat - 'a'.toNat + 10)
  else if 'A' ≤ character && character ≤ 'F' then some (character.toNat - 'A'.toNat + 10)
  else none

def hexWord? (first second third fourth : Char) : Option Nat := do
  let first ← hexDigit? first
  let second ← hexDigit? second
  let third ← hexDigit? third
  let fourth ← hexDigit? fourth
  return ((first * 16 + second) * 16 + third) * 16 + fourth

def escapedCode? (letter : Char) : Option Nat :=
  match letter with
  | '"' => some 0x22
  | '\\' => some 0x5c
  | '/' => some 0x2f
  | 'b' => some 0x8
  | 'f' => some 0xc
  | 'n' => some 0xa
  | 'r' => some 0xd
  | 't' => some 0x9
  | _ => none

/-- Reads a string after its opening quote: its codes in reverse and the text after it. -/
def readCodes (codes : List Nat) : List Char → Option (List Nat × List Char)
  | [] => none
  | '"' :: rest => some (codes, rest)
  | '\\' :: 'u' :: first :: second :: third :: fourth :: rest =>
      match hexWord? first second third fourth with
      | some code => readCodes (code :: codes) rest
      | none => none
  | '\\' :: letter :: rest =>
      match escapedCode? letter with
      | some code => readCodes (code :: codes) rest
      | none => none
  | character :: rest =>
      if character.toNat < 0x20 || character = '\\' then none
      else readCodes (character.toNat :: codes) rest

/-- The characters of some codes. Two surrogates in their order make one character; a
surrogate that stands alone makes none. -/
def charactersOf? : List Nat → Option (List Char)
  | [] => some []
  | code :: rest =>
      if 0xd800 ≤ code && code ≤ 0xdbff then
        match rest with
        | low :: rest =>
            if 0xdc00 ≤ low && low ≤ 0xdfff then
              (charactersOf? rest).map
                (Char.ofNat (0x10000 + (code - 0xd800) * 0x400 + (low - 0xdc00)) :: ·)
            else
              none
        | [] => none
      else if 0xdc00 ≤ code && code ≤ 0xdfff then
        none
      else
        (charactersOf? rest).map (Char.ofNat code :: ·)

def readText? (text : List Char) : Option (Option String × List Char) :=
  (readCodes [] text).map (fun (codes, rest) =>
    ((charactersOf? codes.reverse).map String.ofList, rest))

def readDigits (text : List Char) : List Char × List Char :=
  (text.takeWhile Char.isDigit, text.dropWhile Char.isDigit)

def readFraction? (text : List Char) : Option (Option (List Char) × List Char) :=
  match text with
  | '.' :: rest =>
      let (digits, rest) := readDigits rest
      if digits.isEmpty then none else some (some digits, rest)
  | rest => some (none, rest)

def readExponent? (text : List Char) : Option (Option Int × List Char) :=
  match text with
  | mark :: rest =>
      if mark = 'e' || mark = 'E' then
        let (negative, rest) := Numeric.takeSign rest
        let (digits, rest) := readDigits rest
        if digits.isEmpty then
          none
        else
          let size := (Numeric.digitsValue digits : Int)
          some (some (if negative then -size else size), rest)
      else
        some (none, mark :: rest)
  | [] => some (none, [])

def readNumber? (negative : Bool) (text : List Char) : Option (Json × List Char) := do
  let (whole, rest) := readDigits text
  if whole.isEmpty || (whole.head? = some '0' && 1 < whole.length) then
    none
  let (fraction, rest) ← readFraction? rest
  let (exponent, rest) ← readExponent? rest
  let numeral? :=
    if fraction.isNone && exponent.isNone then
      Numeral.ofWhole? negative whole
    else
      Numeral.ofParts? negative whole (fraction.getD []) (exponent.getD 0)
  return ((numeral?.map Json.number).getD .malformed, rest)

/-- An object from its members in reverse; a name that is malformed spoils the object. -/
def objectOf (members : List (Option String × Json)) : Json :=
  match members.reverse.mapM (fun (name, value) => name.map (fun name => (name, value))) with
  | some members => .object members
  | none => .malformed

mutual

/-- Reads a value at the start of a text. The fuel bounds the number of steps. -/
def readValue? : Nat → List Char → Option (Json × List Char)
  | 0, _ => none
  | fuel + 1, text =>
      match skipBlank text with
      | '{' :: rest =>
          match skipBlank rest with
          | '}' :: rest => some (.object [], rest)
          | rest => readMembers? fuel [] rest
      | '[' :: rest =>
          match skipBlank rest with
          | ']' :: rest => some (.list [], rest)
          | rest => readElements? fuel [] rest
      | '"' :: rest =>
          (readText? rest).map (fun (content, rest) =>
            ((content.map Json.text).getD .malformed, rest))
      | 'n' :: 'u' :: 'l' :: 'l' :: rest => some (.null, rest)
      | 't' :: 'r' :: 'u' :: 'e' :: rest => some (.bool true, rest)
      | 'f' :: 'a' :: 'l' :: 's' :: 'e' :: rest => some (.bool false, rest)
      | '-' :: rest => readNumber? true rest
      | rest => readNumber? false rest

def readElements? : Nat → List Json → List Char → Option (Json × List Char)
  | 0, _, _ => none
  | fuel + 1, elements, text =>
      match readValue? fuel text with
      | none => none
      | some (element, rest) =>
          match skipBlank rest with
          | ',' :: rest => readElements? fuel (element :: elements) rest
          | ']' :: rest => some (.list (element :: elements).reverse, rest)
          | _ => none

def readMembers? : Nat → List (Option String × Json) → List Char → Option (Json × List Char)
  | 0, _, _ => none
  | fuel + 1, members, text =>
      match skipBlank text with
      | '"' :: rest =>
          match readText? rest with
          | none => none
          | some (name, rest) =>
              match skipBlank rest with
              | ':' :: rest =>
                  match readValue? fuel rest with
                  | none => none
                  | some (value, rest) =>
                      match skipBlank rest with
                      | ',' :: rest => readMembers? fuel ((name, value) :: members) rest
                      | '}' :: rest => some (objectOf ((name, value) :: members), rest)
                      | _ => none
              | _ => none
      | _ => none

end

/-- Reads a whole text. Each step but the last consumes a character or is followed by one that
does, so twice the length is fuel enough. -/
def parse? (text : String) : Option Json :=
  let characters := text.toList
  match readValue? (2 * characters.length + 2) characters with
  | some (json, rest) => if (skipBlank rest).isEmpty then some json else none
  | none => none

end EventQuery.JsonText
