import EventQuery.Aggregation.Forge

set_option autoImplicit false

/-! The recording family. It counts events and ignores what they hold; which results it
announces, and what it refuses, is set by the properties of the family. Every request to it
has a line of text, so that a log of the requests can be read off a trace. -/

namespace EventQuery.Recording

def factoryName : String := "recording"

def resultType (family : FunctionFamily) : AttributeType :=
  ((family.text? "result").bind AttributeType.ofName?).getD .long

def stateKey (family : FunctionFamily) (function : String) : StateKey :=
  match family.text? "stateKey" with
  | some "perFunction" => ⟨factoryName, function⟩
  | some discriminator => ⟨factoryName, discriminator⟩
  | none => ⟨factoryName, "count"⟩

def shape (validation : CallValidation) : Except ValidationError ResultType :=
  let type := resultType validation.family
  match validation.family.text? "shape", validation.streams with
  | some "events", stream :: _ => .ok (.events stream)
  | some "event", stream :: _ => .ok (.event stream)
  | some "events", [] | some "event", [] => .error (validation.reject "no streams")
  | some "scalars", _ => .ok (.scalars type)
  | _, _ => .ok (.scalar type)

def validate (validation : CallValidation) : Except ValidationError Handler :=
  if validation.family.text? "reject" = some validation.function then
    .error (validation.reject "rejected on request")
  else
    (shape validation).map (fun result =>
      ⟨result, .tally, .tally, stateKey validation.family validation.function⟩)

def factory : AggregationFactory where
  name := factoryName
  create family :=
    match family.text? "failCreate" with
    | some text => .error (.aggregationRejected factoryName text)
    | none => .ok ⟨fun _ validation => validate validation⟩

def joined (texts : List String) : String :=
  String.intercalate "," texts

def truth (value : Bool) : String :=
  if value then "true" else "false"

def parameterLine (parameter : AggregationParameter) : String :=
  match parameter.stream? with
  | some stream => s!"{parameter.valueType.name}@{stream}"
  | none => parameter.valueType.name

def line? : TraceEntry → Option String
  | .creation maker family =>
      if maker = factoryName then some ("create:" ++ joined family.functions) else none
  | .message _ maker (.declared call) =>
      if maker = factoryName then
        some (String.intercalate ":" ["declare", call.statement, call.function,
          truth call.distinct, toString call.parameters.length])
      else
        none
  | .message _ maker (.validated call) =>
      if maker = factoryName then
        some (String.intercalate ":" ["validate", call.statement, call.function,
          truth call.distinct, joined (call.resolved.map parameterLine),
          joined (call.streams.map EventType.name)])
      else
        none

def log (trace : List TraceEntry) : List String :=
  trace.filterMap line?

end EventQuery.Recording
