import EventQuery.Document.Json.Numeral

set_option autoImplicit false

/-! JSON as a tree. An object keeps its members in order and with their repetitions; what a
document admits is decided by the one who reads the tree. -/

namespace EventQuery

inductive Json where
  | null
  | bool (truth : Bool)
  | number (numeral : Numeral)
  | text (content : String)
  | list (elements : List Json)
  | object (members : List (String × Json))
  /-- A part that may be passed over but not read: a string that does not denote text, because
  of an escape that is no character, or a number that is too large. -/
  | malformed

namespace Json

def text? : Json → Option String
  | text content => some content
  | _ => none

def bool? : Json → Option Bool
  | bool truth => some truth
  | _ => none

def integer? : Json → Option Int
  | number (.integer value) => some value
  | _ => none

/-- The value of the last member of a given name. -/
def member? (json : Json) (name : String) : Option Json :=
  match json with
  | object members => (members.reverse.find? (fun member => member.1 = name)).map Prod.snd
  | _ => none

mutual

def depth : Json → Nat
  | list elements => depthOfElements elements + 1
  | object members => depthOfMembers members + 1
  | _ => 0
termination_by structural json => json

def depthOfElements : List Json → Nat
  | [] => 0
  | element :: elements => max element.depth (depthOfElements elements)
termination_by structural elements => elements

def depthOfMembers : List (String × Json) → Nat
  | [] => 0
  | (_, value) :: members => max value.depth (depthOfMembers members)
termination_by structural members => members

end

mutual

def readable : Json → Bool
  | list elements => readableElements elements
  | object members => readableMembers members
  | malformed => false
  | _ => true
termination_by structural json => json

def readableElements : List Json → Bool
  | [] => true
  | element :: elements => element.readable && readableElements elements
termination_by structural elements => elements

def readableMembers : List (String × Json) → Bool
  | [] => true
  | (_, value) :: members => value.readable && readableMembers members
termination_by structural members => members

end

end Json

end EventQuery
