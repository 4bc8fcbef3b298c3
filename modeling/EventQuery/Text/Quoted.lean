import EventQuery.Text.Unprintable

set_option autoImplicit false

/-! Lists as messages show them: entries between brackets, separated by a comma and a blank.
Text entries stand in double quotes, with the characters that would not be legible written as
escapes. -/

namespace EventQuery.Text

def quotedCharacter (character : Char) : List Char :=
  if character = '"' then ['\\', '"']
  else if character = '\\' then ['\\', '\\']
  else if character = '\n' then ['\\', 'n']
  else if character = '\r' then ['\\', 'r']
  else if character = '\t' then ['\\', 't']
  else if character.toNat = 0 then ['\\', '0']
  else if isUnprintable character then
    ['\\', 'u', '{'] ++ Nat.toDigits 16 character.toNat ++ ['}']
  else [character]

def quoted (text : String) : String :=
  String.ofList (['"'] ++ text.toList.flatMap quotedCharacter ++ ['"'])

def bracketed (entries : List String) : String :=
  "[" ++ String.intercalate ", " entries ++ "]"

end EventQuery.Text
