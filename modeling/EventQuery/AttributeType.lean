set_option autoImplicit false

/-! The types of attribute values, their widening order and their comparability.
The four numeric types form a chain `int < long < float < double`; the type `object`
stands for a value whose type is not known more closely and is comparable to all. -/

namespace EventQuery

inductive AttributeType where
  | string
  | int
  | long
  | float
  | double
  | bool
  | bytes
  | object
  deriving DecidableEq, Repr, Inhabited

namespace AttributeType

def all : List AttributeType :=
  [string, int, long, float, double, bool, bytes, object]

/-- The name under which documents and messages mention a type. -/
def name : AttributeType → String
  | string => "string"
  | int => "int"
  | long => "long"
  | float => "float"
  | double => "double"
  | bool => "bool"
  | bytes => "bytes"
  | object => "object"

def ofName? (text : String) : Option AttributeType :=
  all.find? (fun type => type.name = text)

/-- Position of a numeric type in the widening chain. -/
def numericRank : AttributeType → Option Nat
  | int => some 0
  | long => some 1
  | float => some 2
  | double => some 3
  | _ => none

def isNumeric (type : AttributeType) : Bool :=
  type.numericRank.isSome

/-- The wider of two numeric types, which is the type of arithmetic over them;
`none` when one of them is not numeric. -/
def widen (left right : AttributeType) : Option AttributeType :=
  match left.numericRank, right.numericRank with
  | some leftRank, some rightRank => some (if rightRank ≤ leftRank then left else right)
  | _, _ => none

def comparable (left right : AttributeType) : Bool :=
  left = right || (left.isNumeric && right.isNumeric) || left = object || right = object

end AttributeType

structure Attribute where
  name : String
  type : AttributeType
  deriving DecidableEq, Repr

def Attribute.typeOf? (attributes : List Attribute) (name : String) : Option AttributeType :=
  (attributes.find? (fun candidate => candidate.name = name)).map Attribute.type

end EventQuery
