import EventQuery.Document.Json

set_option autoImplicit false

/-! Compact JSON text. -/

namespace EventQuery.Json

/-- A character inside a string. Quotes, backslashes and control characters are escaped, all
else stands for itself. -/
def printedCharacter (character : Char) : List Char :=
  if character = '"' then ['\\', '"']
  else if character = '\\' then ['\\', '\\']
  else if character.toNat = 0x8 then ['\\', 'b']
  else if character.toNat = 0xc then ['\\', 'f']
  else if character = '\n' then ['\\', 'n']
  else if character = '\r' then ['\\', 'r']
  else if character = '\t' then ['\\', 't']
  else if character.toNat < 0x20 then
    let digit (value : Nat) : Char := Nat.digitChar value
    ['\\', 'u', '0', '0', digit (character.toNat / 16), digit (character.toNat % 16)]
  else [character]

def printedText (text : String) : String :=
  String.ofList (['"'] ++ text.toList.flatMap printedCharacter ++ ['"'])

def printedNumeral : Numeral → String
  | .integer value => toString value
  | .real value =>
      let sign := if value.isNegative then "-" else ""
      let decimal := Decimal.shortest value.magnitude.toNat
      sign ++ toString decimal.digits ++ "e" ++ toString decimal.exponent

mutual

def print : Json → String
  | null => "null"
  | bool true => "true"
  | bool false => "false"
  | number numeral => printedNumeral numeral
  | text content => printedText content
  | list elements => "[" ++ String.intercalate "," (printElements elements) ++ "]"
  | object members => "\x7b" ++ String.intercalate "," (printMembers members) ++ "\x7d"
  | malformed => "null"
termination_by structural json => json

def printElements : List Json → List String
  | [] => []
  | element :: elements => element.print :: printElements elements
termination_by structural elements => elements

def printMembers : List (String × Json) → List String
  | [] => []
  | (name, value) :: members => (printedText name ++ ":" ++ value.print) :: printMembers members
termination_by structural members => members

end

end EventQuery.Json
