import EventQuery.Aggregation.Handler
import EventQuery.Expression

set_option autoImplicit false

/-! Expressions whose names are resolved. Properties are bound to getters, substitution
parameters to slots, aggregation calls and subqueries to their positions in the statement. The
result type of an aggregation call and the type of arithmetic are filled in last, when the
handlers of the calls are known. -/

namespace EventQuery

inductive Resolved where
  | constant (value : Constant)
  | property (stream : Nat) (path : String) (compiled : CompiledProperty)
  | wildcard (stream : Nat) (eventType : EventType)
  | variable (name : String) (type : AttributeType)
  | table (node : TableAccess) (keys : List Resolved) (type : AttributeType)
  | substitution (slot : Nat) (type : AttributeType)
  | prior (index stream : Nat) (compiled : CompiledProperty)
  /-- A call of a declared expression, as its body with the arguments in place. -/
  | declared (name : String) (body : Resolved)
  | script (script : Script) (arguments : List Resolved)
  | aggregation (site : Nat) (position : Option Position) (result : Option ResultType)
  | subquery (index : Nat) (type : AttributeType)
  | math (operator : MathOperator) (left right : Resolved) (position : Option Position)
      (type : AttributeType)
  | compare (operator : CompareOperator) (left right : Resolved) (position : Option Position)
  | and (left right : Resolved)
  | or (left right : Resolved)
  | not (inner : Resolved)

namespace Resolved

/-- The type of the value; `object` for events and for what is not typed yet. -/
def valueType : Resolved → AttributeType
  | constant value => value.type
  | property _ _ compiled => compiled.type
  | wildcard _ _ => .object
  | .variable _ type => type
  | table _ _ type => type
  | substitution _ type => type
  | prior _ _ compiled => compiled.type
  | declared _ body => body.valueType
  | script called _ => called.returns
  | aggregation _ _ result => (result.map ResultType.valueType).getD .object
  | subquery _ type => type
  | math _ _ _ _ type => type
  | compare _ _ _ _ => .bool
  | and _ _ => .bool
  | or _ _ => .bool
  | not _ => .bool

mutual

/-- A tree and all trees below it, each before those below it. -/
def nodes : Resolved → List Resolved
  | table node keys type => table node keys type :: nodesOfAll keys
  | declared name body => declared name body :: body.nodes
  | script called arguments => script called arguments :: nodesOfAll arguments
  | math operator left right position type =>
      math operator left right position type :: (left.nodes ++ right.nodes)
  | compare operator left right position =>
      compare operator left right position :: (left.nodes ++ right.nodes)
  | and left right => and left right :: (left.nodes ++ right.nodes)
  | or left right => or left right :: (left.nodes ++ right.nodes)
  | not inner => not inner :: inner.nodes
  | leaf => [leaf]
termination_by structural tree => tree

def nodesOfAll : List Resolved → List Resolved
  | [] => []
  | tree :: rest => tree.nodes ++ nodesOfAll rest
termination_by structural trees => trees

end

end Resolved

end EventQuery
