import EventQuery.Compile.Resolution

set_option autoImplicit false

/-! Resolution of the leaves of an expression: properties, wildcards and substitution
parameters. -/

namespace EventQuery.Frame

open Resolution

def resolveStreamProperty (frame : Frame) (stream : StreamBinding × Nat) (path : String)
    (position : Option Position) : Resolution Resolved := do
  let progress ← get
  let (result, getters) :=
    progress.memory.getters.compile frame.services.registry stream.1.type path
  set { progress with memory := { progress.memory with getters := getters } }
  match result with
  | .ok compiled => return .property stream.2 path compiled
  | .error failure => refuse failure position

/-- What a path without a stream denotes. A parameter of the declaration around it comes first,
then the only stream that has the property, then the stream that the first segment names, then
a variable. With a single stream left to blame, its failure says what is wrong. -/
def resolvePath (frame : Frame) (scope : Scope) (path : String) (position : Option Position) :
    Resolution Resolved :=
  match scope.bindings.lookup path with
  | some bound => return bound
  | none =>
      match frame.streamsWith ((Text.segments path).headD "") with
      | [stream] => frame.resolveStreamProperty stream path position
      | _ :: _ :: _ => refuse (.ambiguousProperty path) position
      | [] =>
          match frame.qualified? path with
          | some (stream, rest) => frame.resolveStreamProperty stream rest position
          | none =>
              match frame.services.variableNamed? path with
              | some definition => do
                  modifySymbols (fun symbols => symbols.recordVariable definition.name)
                  return .variable definition.name definition.type
              | none =>
                  match frame.indexedStreams with
                  | [stream] => frame.resolveStreamProperty stream path position
                  | _ => refuse (.unknownSymbol .column path) position

def resolveProperty (frame : Frame) (scope : Scope) (node : PropertyNode) :
    Resolution Resolved :=
  match node.stream with
  | some name =>
      match frame.streamNamed? name with
      | some stream => frame.resolveStreamProperty stream node.path node.position
      | none => refuse (.unknownSymbol .stream name) node.position
  | none => frame.resolvePath scope node.path node.position

def resolvePrior (frame : Frame) (scope : Scope) (position : Option Position) (index : Nat)
    (node : PropertyNode) : Resolution Resolved := do
  match ← frame.resolveProperty scope node with
  | .property stream _ compiled =>
      modifySymbols (fun symbols => symbols.setPrior true)
      return .prior index stream compiled
  | _ => refuse (.notAllowed (.priorOfNonProperty node.path)) position

/-- The events of a stream, within a parameter of an aggregation call only. -/
def resolveWildcard (frame : Frame) (scope : Scope) (position : Option Position)
    (stream : Option String) : Resolution Resolved :=
  if scope.inAggregation then
    match stream with
    | some name =>
        match frame.streamNamed? name with
        | some (binding, index) => return .wildcard index binding.type
        | none => refuse (.unknownSymbol .stream name) position
    | none =>
        match frame.indexedStreams with
        | [(binding, index)] => return .wildcard index binding.type
        | _ => refuse (.notAllowed .ambiguousWildcard) position
  else
    refuse (.notAllowed .wildcardOutsideAggregation) position

/-- A substitution parameter, which takes the next slot. Either all parameters of a statement
have names or none has. -/
def resolveSubstitution (frame : Frame) (node : SubstitutionNode) : Resolution Resolved :=
  if frame.isSubquery then
    refuse (.notAllowed .substitutionInSubquery) node.position
  else do
    let style : ParameterStyle := if node.name.isSome then .named else .unnamed
    let progress ← get
    if progress.style.any (fun other => other ≠ style) then
      refuse (.invalidSubstitution .mixedStyles) node.position
    else
      let (slot, symbols) := progress.symbols.addSubstitution node
      set { progress with symbols := symbols, style := some style }
      return .substitution slot (node.declaredType.getD .object)

end EventQuery.Frame
