import EventQuery.Aggregation.Family
import EventQuery.Aggregation.Handler
import EventQuery.Expression
import EventQuery.Registry

set_option autoImplicit false

/-! Factories and forges. A factory creates a forge for each family that a statement uses. A
forge first learns of all calls of its functions, before any types are known, and then
validates each of them. What was asked of factories and forges is kept in a trace, and a forge
may let its answers depend on its own part of it. -/

namespace EventQuery

structure CallDeclaration where
  statement : String
  function : String
  distinct : Bool
  parameters : List Expression
  family : FunctionFamily

structure CallValidation where
  statement : String
  function : String
  distinct : Bool
  parameters : List Expression
  resolved : List AggregationParameter
  streams : List EventType
  registry : Registry
  family : FunctionFamily

def CallValidation.reject (validation : CallValidation) (text : String) : ValidationError :=
  .aggregationRejected validation.function text

inductive Callback where
  | declared (declaration : CallDeclaration)
  | validated (validation : CallValidation)

/-- How a forge answers a validation, given the messages it had before. -/
structure ForgeBehaviour where
  validate : List Callback → CallValidation → Except ValidationError Handler

/-- Creates forges for families; the name is the factory's own. -/
structure AggregationFactory where
  name : String
  create : FunctionFamily → Except ValidationError ForgeBehaviour

structure Forge where
  identity : Nat
  maker : String
  behaviour : ForgeBehaviour

inductive TraceEntry where
  | creation (factory : String) (family : FunctionFamily)
  | message (identity : Nat) (maker : String) (callback : Callback)

/-- All requests so far, in their order, and the identity of the next forge. -/
structure Workshop where
  nextIdentity : Nat
  trace : List TraceEntry

namespace Workshop

def empty : Workshop := ⟨0, []⟩

def history (workshop : Workshop) (forge : Forge) : List Callback :=
  workshop.trace.filterMap (fun entry =>
    match entry with
    | .message identity _ callback => if identity = forge.identity then some callback else none
    | .creation _ _ => none)

def record (workshop : Workshop) (entry : TraceEntry) : Workshop :=
  { workshop with trace := workshop.trace ++ [entry] }

def create (workshop : Workshop) (factory : AggregationFactory) (family : FunctionFamily) :
    Except ValidationError Forge × Workshop :=
  let asked := workshop.record (.creation factory.name family)
  match factory.create family with
  | .ok behaviour =>
      (.ok ⟨asked.nextIdentity, factory.name, behaviour⟩,
        { asked with nextIdentity := asked.nextIdentity + 1 })
  | .error failure => (.error failure, asked)

def declare (workshop : Workshop) (forge : Forge) (declaration : CallDeclaration) : Workshop :=
  workshop.record (.message forge.identity forge.maker (.declared declaration))

def validate (workshop : Workshop) (forge : Forge) (validation : CallValidation) :
    Except ValidationError Handler × Workshop :=
  (forge.behaviour.validate (workshop.history forge) validation,
    workshop.record (.message forge.identity forge.maker (.validated validation)))

end Workshop

end EventQuery
