import EventQuery.Aggregation.Forge

set_option autoImplicit false

/-! The collecting family `window`, `first` and `last`. All three read the events collected for
one stream, so calls over the same stream share one state: `window` gives all of them, `first`
the oldest and `last` the newest, as events when the parameter is a wildcard and as values when
it is a property. -/

namespace EventQuery.Collect

def factoryName : String := "collect"

def family : FunctionFamily :=
  ⟨["window", "first", "last"], factoryName, []⟩

def lowerCase (text : String) : String :=
  String.ofList (text.toList.map Char.toLower)

/-- Which end of the collected events a function reads; the window has none. -/
def edgeOf? (function : String) : Option (Option Edge) :=
  if function = "window" then some none
  else if function = "first" then some (some .first)
  else if function = "last" then some (some .last)
  else none

def stateKey (stream : Nat) : StateKey :=
  ⟨factoryName, s!"stream-{stream}"⟩

def parameterText : String :=
  "the parameter must be a stream wildcard or a stream property"

def eventHandler (stream : Nat) (type : EventType) (edge : Option Edge) : Handler :=
  match edge with
  | none => ⟨.events type, .windowEvents, .collect stream, stateKey stream⟩
  | some edge => ⟨.event type, .edgeEvent edge, .collect stream, stateKey stream⟩

def valueHandler (stream : Nat) (property : CompiledProperty) (edge : Option Edge) : Handler :=
  match edge with
  | none =>
      ⟨.scalars property.type, .windowValues property.getter, .collect stream, stateKey stream⟩
  | some edge =>
      ⟨.scalar property.type, .edgeValue edge property.getter, .collect stream, stateKey stream⟩

/-- Validates a call: one parameter, which is a wildcard or a property, and no `distinct`. -/
def validate (validation : CallValidation) : Except ValidationError Handler :=
  if validation.distinct then
    .error (validation.reject "distinct is not supported")
  else
    match validation.resolved with
    | [parameter] =>
        let function := lowerCase validation.function
        match parameter, edgeOf? function with
        | .value _, _ => .error (validation.reject parameterText)
        | .stream index type, some edge => .ok (eventHandler index type edge)
        | .property stream _ property, some edge => .ok (valueHandler stream property edge)
        | _, none => .error (validation.reject s!"'{function}' is not a collect function")
    | parameters =>
        .error (validation.reject
          s!"expects exactly one parameter but received {parameters.length}")

def factory : AggregationFactory :=
  ⟨factoryName, fun _ => .ok ⟨fun _ validation => validate validation⟩⟩

end EventQuery.Collect
