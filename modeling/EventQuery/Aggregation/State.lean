import EventQuery.Aggregation.Handler
import EventQuery.Value.Equality

set_option autoImplicit false

/-! States of aggregation at run time. Events enter and leave a state, one event for each stream
of the statement. A collecting state holds the events of one stream in the order of their
arrival; a tally counts calls. Accessors read a state and never change it. -/

namespace EventQuery

inductive AggregationState where
  | collected (stream : Nat) (events : List Event)
  | tally (count : Int)

def StateSeed.start : StateSeed → AggregationState
  | .collect stream => .collected stream []
  | .tally => .tally 0

namespace AggregationState

/-- The collected events without one of them: the very event that leaves, or else the first
one that equals it. -/
def withoutEvent (events : List Event) (leaving : Event) : List Event :=
  match events.findIdx? (fun event => event.same leaving) with
  | some index => events.eraseIdx index
  | none =>
      match events.findIdx? (fun event => event.equals leaving) with
      | some index => events.eraseIdx index
      | none => events

def enter (state : AggregationState) (arriving : List Event) : AggregationState :=
  match state with
  | collected stream events =>
      match arriving[stream]? with
      | some event => collected stream (events ++ [event])
      | none => collected stream events
  | tally count => tally (count + 1)

def leave (state : AggregationState) (leaving : List Event) : AggregationState :=
  match state with
  | collected stream events =>
      match leaving[stream]? with
      | some event => collected stream (withoutEvent events event)
      | none => collected stream events
  | tally count => tally (count - 1)

def clear : AggregationState → AggregationState
  | collected stream _ => collected stream []
  | tally _ => tally 0

def events? : AggregationState → Option (List Event)
  | collected _ events => some events
  | tally _ => none

def edge? (state : AggregationState) : Edge → Option Event
  | .first => state.events?.bind List.head?
  | .last => state.events?.bind List.getLast?

def window? (state : AggregationState) : Option (List Event) :=
  match state.events? with
  | some (first :: rest) => some (first :: rest)
  | _ => none

end AggregationState

namespace Accessor

def value (accessor : Accessor) (state : AggregationState) : Value :=
  match accessor, state with
  | edgeValue edge getter, state =>
      match state.edge? edge with
      | some event => getter.readOrNull event.store
      | none => .null
  | tally, .tally count => .long (Int64.ofInt count)
  | _, _ => .null

def events? (accessor : Accessor) (state : AggregationState) : Option (List Event) :=
  match accessor with
  | windowEvents => state.window?
  | _ => none

def event? (accessor : Accessor) (state : AggregationState) : Option Event :=
  match accessor with
  | edgeEvent edge => state.edge? edge
  | _ => none

def scalars? (accessor : Accessor) (state : AggregationState) : Option (List Value) :=
  match accessor with
  | windowValues getter =>
      state.window?.map (fun events => events.map (fun event => getter.readOrNull event.store))
  | _ => none

end Accessor

end EventQuery
