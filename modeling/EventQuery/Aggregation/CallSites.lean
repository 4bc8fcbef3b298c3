import EventQuery.Aggregation.Forge
import EventQuery.Aggregation.Key

set_option autoImplicit false

/-! The aggregation calls of one statement. Calls are collected while the statement is resolved;
then every call is declared to its forge, and only then every call is validated. The order in
which calls are visited is given from outside and must visit each of them once; handlers are
always reported by the position of their call. -/

namespace EventQuery

structure CallSite where
  node : FunctionCall
  key : AggregationKey
  forge : Forge
  family : FunctionFamily
  parameters : List AggregationParameter

inductive CallPhase where
  | collecting
  | declared
  | validated
  deriving DecidableEq, Repr

structure CallSites where
  sites : List CallSite
  phase : CallPhase

structure CallSiteError where
  site : Nat
  error : ValidationError

namespace CallSite

def declaration (site : CallSite) (statement : String) : CallDeclaration :=
  ⟨statement, site.node.name, site.node.distinct, site.node.parameters, site.family⟩

def validation (site : CallSite) (statement : String) (streams : List EventType)
    (registry : Registry) : CallValidation :=
  ⟨statement, site.node.name, site.node.distinct, site.node.parameters, site.parameters,
    streams, registry, site.family⟩

end CallSite

namespace CallSites

def empty : CallSites := ⟨[], .collecting⟩

/-- Adds a call; its position is the number of calls before it. -/
def add (calls : CallSites) (site : CallSite) : Except ValidationError (Nat × CallSites) :=
  if calls.phase = .collecting then
    .ok (calls.sites.length, { calls with sites := calls.sites ++ [site] })
  else
    .error (.notAllowed .lateCallSite)

def naturalOrder (calls : CallSites) : List Nat :=
  List.range calls.sites.length

/-- Refuses an order that does not visit every call exactly once. -/
def checkOrder (calls : CallSites) (order : List Nat) : Except ValidationError Unit :=
  let count := calls.sites.length
  if order.all (fun index => index < count) && order.Nodup && order.length = count then
    .ok ()
  else
    .error (.notAllowed (.notPermutation order count))

def declareVisits (sites : List CallSite) (statement : String) :
    List Nat → Workshop → Workshop
  | [], workshop => workshop
  | index :: rest, workshop =>
      match sites[index]? with
      | some site =>
          declareVisits sites statement rest
            (workshop.declare site.forge (site.declaration statement))
      | none => declareVisits sites statement rest workshop

def declare (calls : CallSites) (workshop : Workshop) (statement : String) (order : List Nat) :
    Except ValidationError (CallSites × Workshop) :=
  if calls.phase = .collecting then
    match calls.checkOrder order with
    | .ok _ =>
        .ok ({ calls with phase := .declared },
          declareVisits calls.sites statement order workshop)
    | .error failure => .error failure
  else
    .error (.notAllowed .repeatedDeclaration)

/-- Validates the calls at some positions; the first refusal ends the visits. The handlers are
paired with the positions of their calls. -/
def validateVisits (sites : List CallSite) (statement : String) (streams : List EventType)
    (registry : Registry) : List Nat → Workshop →
    Except CallSiteError (List (Nat × Handler)) × Workshop
  | [], workshop => (.ok [], workshop)
  | index :: rest, workshop =>
      match sites[index]? with
      | some site =>
          match workshop.validate site.forge (site.validation statement streams registry) with
          | (.error failure, workshop) => (.error ⟨index, failure⟩, workshop)
          | (.ok handler, workshop) =>
              match validateVisits sites statement streams registry rest workshop with
              | (.ok handlers, workshop) => (.ok ((index, handler) :: handlers), workshop)
              | (.error failure, workshop) => (.error failure, workshop)
      | none => validateVisits sites statement streams registry rest workshop

/-- Validates every call, in a given order, and gives the handlers by the positions of their
calls. After a refusal the calls stay declared. -/
def validate (calls : CallSites) (workshop : Workshop) (statement : String) (order : List Nat)
    (streams : List EventType) (registry : Registry) :
    Except CallSiteError (List Handler) × CallSites × Workshop :=
  if calls.phase = .declared then
    match calls.checkOrder order with
    | .ok _ =>
        match validateVisits calls.sites statement streams registry order workshop with
        | (.ok handlers, workshop) =>
            (.ok (calls.naturalOrder.filterMap (fun index => handlers.lookup index)),
              { calls with phase := .validated }, workshop)
        | (.error failure, workshop) => (.error failure, calls, workshop)
    | .error failure => (.error ⟨0, failure⟩, calls, workshop)
  else
    (.error ⟨0, .notAllowed .validationBeforeDeclaration⟩, calls, workshop)

end CallSites

end EventQuery
