import EventQuery.Getter

set_option autoImplicit false

/-! What validation of an aggregation call yields: the type of its result, how the state of its
statement is made, how the result is read from that state, and the key under which calls share
one state. -/

namespace EventQuery

inductive ResultType where
  | scalar (type : AttributeType)
  | scalars (type : AttributeType)
  | events (type : EventType)
  | event (type : EventType)

namespace ResultType

def valueType : ResultType → AttributeType
  | scalar type => type
  | _ => .object

def same : ResultType → ResultType → Bool
  | scalar type, scalar other => type = other
  | scalars type, scalars other => type = other
  | events type, events other => type.name = other.name
  | event type, event other => type.name = other.name
  | _, _ => false

end ResultType

inductive AggregationParameter where
  | stream (index : Nat) (type : EventType)
  | property (index : Nat) (path : String) (compiled : CompiledProperty)
  | value (type : AttributeType)

namespace AggregationParameter

def valueType : AggregationParameter → AttributeType
  | stream _ _ => .object
  | property _ _ compiled => compiled.type
  | value type => type

def stream? : AggregationParameter → Option Nat
  | stream index _ => some index
  | property index _ _ => some index
  | value _ => none

end AggregationParameter

/-- Calls whose handlers have equal keys read the same state. -/
structure StateKey where
  provider : String
  discriminator : String
  deriving DecidableEq, Repr

def StateKey.text (key : StateKey) : String :=
  key.provider ++ "/" ++ key.discriminator

inductive Edge where
  | first
  | last
  deriving DecidableEq, Repr

inductive Accessor where
  | windowEvents
  | windowValues (getter : Getter)
  | edgeEvent (edge : Edge)
  | edgeValue (edge : Edge) (getter : Getter)
  | tally

inductive StateSeed where
  | collect (stream : Nat)
  | tally
  deriving DecidableEq, Repr

structure Handler where
  resultType : ResultType
  accessor : Accessor
  seed : StateSeed
  stateKey : StateKey

end EventQuery
