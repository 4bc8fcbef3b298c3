import EventQuery.AttributeType
import EventQuery.Document.Json
import EventQuery.Document.Json.Parser
import EventQuery.Numeric.Binary

set_option autoImplicit false

/-! The exchange format: JSON trees by which a front end hands over values and statements and
gets back what became of them. Here are its scalars and the access to the members of an object;
a member that is null counts as missing. -/

namespace EventQuery.Exchange

def str (text : String) : Json := .text text

def int (number : Int) : Json :=
  .number (.integer number)

def nat (number : Nat) : Json := int number

def arr (elements : List Json) : Json := .list elements

def obj (members : List (String × Json)) : Json := .object members

def maybe {α : Type} (write : α → Json) : Option α → Json
  | some value => write value
  | none => .null

def hex (digits number : Nat) : String :=
  let text := Nat.toDigits 16 number
  String.ofList (List.replicate (digits - text.length) '0' ++ text)

/-- A floating point number by its word; all NaNs are written alike. -/
def float32 (number : Binary32) : Json :=
  str (if number.isNaN then "nan" else hex 8 number.bits.toNat)

def float64 (number : Binary64) : Json :=
  str (if number.isNaN then "nan" else hex 16 number.bits.toNat)

def typeName (type : AttributeType) : Json := str type.name

variable {m : Type → Type} [Monad m] [MonadExceptOf String m]

def optional (json : Json) (name : String) : Option Json :=
  match json.member? name with
  | some .null => none
  | found => found

def field (json : Json) (name : String) : m Json :=
  match optional json name with
  | some found => pure found
  | none => throw s!"missing {name}"

def element (elements : List Json) (index : Nat) : Option Json :=
  match elements[index]? with
  | some .null => none
  | found => found

def textOf (json : Json) : m String :=
  match json.text? with
  | some text => pure text
  | none => throw "not a text"

def intOf (json : Json) : m Int :=
  match json.integer? with
  | some number => pure number
  | none => throw "not an integer"

def natOf (json : Json) : m Nat := do
  return (← intOf json).toNat

def boolOf (json : Json) : m Bool :=
  match json.bool? with
  | some truth => pure truth
  | none => throw "not a truth value"

def listOf (json : Json) : m (List Json) :=
  match json with
  | .list elements => pure elements
  | _ => throw "not a list"

def pairOf (json : Json) : m (Json × Json) :=
  match json with
  | .list [left, right] => pure (left, right)
  | _ => throw "not a pair"

def membersOf (json : Json) : m (List (String × Json)) :=
  match json with
  | .object members => pure members
  | _ => throw "not an object"

def typeOf (json : Json) : m AttributeType :=
  match json.text?.bind AttributeType.ofName? with
  | some type => pure type
  | none => throw "not a type"

def hexOf (text : List Char) : m Nat :=
  text.foldlM (fun number digit =>
    match JsonText.hexDigit? digit with
    | some found => pure (number * 16 + found)
    | none => throw "not hexadecimal") 0

def float32Of (json : Json) : m Binary32 := do
  let text ← textOf json
  if text = "nan" then return ⟨0x7fc00000⟩
  return ⟨UInt32.ofNat (← hexOf text.toList)⟩

def float64Of (json : Json) : m Binary64 := do
  let text ← textOf json
  if text = "nan" then return ⟨0x7ff8000000000000⟩
  return ⟨UInt64.ofNat (← hexOf text.toList)⟩

def bytesOf : List Char → m (List UInt8)
  | [] => pure []
  | [_] => throw "odd number of digits"
  | high :: low :: rest => do
      let octet ← hexOf [high, low]
      let octets ← bytesOf rest
      return UInt8.ofNat octet :: octets

def textField (json : Json) (name : String) : m String := do
  textOf (← field json name)

def natField (json : Json) (name : String) : m Nat := do
  natOf (← field json name)

def typeField (json : Json) (name : String) : m AttributeType := do
  typeOf (← field json name)

def optionalText (json : Json) (name : String) : m (Option String) :=
  (optional json name).mapM textOf

def flagField (json : Json) (name : String) : m Bool := do
  return (← (optional json name).mapM boolOf).getD false

def listField (json : Json) (name : String) : m (List Json) := do
  return (← (optional json name).mapM listOf).getD []

def textsField (json : Json) (name : String) : m (List String) := do
  (← listField json name).mapM textOf

def named {α : Type} (entries : List (String × α)) (name : String) : m α :=
  match entries.lookup name with
  | some found => pure found
  | none => throw s!"unknown name {name}"

end EventQuery.Exchange
