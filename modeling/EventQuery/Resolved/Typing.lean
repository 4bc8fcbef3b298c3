import EventQuery.Resolved

set_option autoImplicit false

/-! Typing of resolved expressions. Types are found bottom-up: arithmetic takes numeric
operands and gives the wider of their types, a comparison takes comparable operands, and the
logical operators take truth values. An operand of type `object` is admitted everywhere. -/

namespace EventQuery

namespace AttributeType

def arithmetic? (left right : AttributeType) : Option AttributeType :=
  match left, right with
  | .object, .object => some .object
  | .object, other => if other.isNumeric then some other else none
  | other, .object => if other.isNumeric then some other else none
  | left, right => left.widen right

def isCondition (type : AttributeType) : Bool :=
  type = .bool || type = .object

end AttributeType

namespace Resolved

def checkOperand (operator : String) (operand : Resolved) : Except LocatedError Unit :=
  if operand.valueType.isCondition then
    .ok ()
  else
    .error ⟨.typeMismatch operator (.operand operand.valueType), none⟩

mutual

/-- The tree with its types filled in. Aggregation calls get the result types of their
handlers; a call without a handler stays as it is. -/
def typed (handlers : List Handler) : Resolved → Except LocatedError Resolved
  | aggregation site position result =>
      match handlers[site]? with
      | some handler => .ok (aggregation site position (some handler.resultType))
      | none => .ok (aggregation site position result)
  | table node keys type => do
      return table node (← typedAll handlers keys) type
  | declared name body => do
      return declared name (← typed handlers body)
  | script called arguments => do
      return script called (← typedAll handlers arguments)
  | math operator left right position _ => do
      let left ← typed handlers left
      let right ← typed handlers right
      match left.valueType.arithmetic? right.valueType with
      | some type => return math operator left right position type
      | none =>
          throw ⟨.typeMismatch operator.name (.arithmetic left.valueType right.valueType),
            position⟩
  | compare operator left right position => do
      let left ← typed handlers left
      let right ← typed handlers right
      if left.valueType.comparable right.valueType then
        return compare operator left right position
      else
        throw ⟨.typeMismatch operator.name (.comparison left.valueType right.valueType),
          position⟩
  | and left right => do
      let left ← typed handlers left
      checkOperand "logical operator" left
      let right ← typed handlers right
      checkOperand "logical operator" right
      return and left right
  | or left right => do
      let left ← typed handlers left
      checkOperand "logical operator" left
      let right ← typed handlers right
      checkOperand "logical operator" right
      return or left right
  | not inner => do
      let inner ← typed handlers inner
      checkOperand "not" inner
      return not inner
  | leaf => .ok leaf
termination_by structural tree => tree

def typedAll (handlers : List Handler) : List Resolved → Except LocatedError (List Resolved)
  | [] => .ok []
  | tree :: rest => do
      let tree ← typed handlers tree
      let rest ← typedAll handlers rest
      return tree :: rest
termination_by structural trees => trees

end

end Resolved

end EventQuery
