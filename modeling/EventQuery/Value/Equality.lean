import EventQuery.Value

set_option autoImplicit false

/-! Equality of values and events. Numbers compare numerically, so no NaN equals itself;
maps compare by their entries, arrays, trees and records position by position, and objects by
identity alone. Two events are equal when they are one and the same event, or when their types
have the same name and their backing stores are equal; an event is therefore equal to itself
whatever it holds. Names and lengths are compared before any value, so that two stores of
different shape are told apart without a walk through what they hold. -/

namespace EventQuery

mutual

/-- Whether two values are one and the same, down to identities and bits. -/
def Value.identical : Value → Value → Bool
  | .null, .null => true
  | .string text, .string other => text = other
  | .int number, .int other => number = other
  | .long number, .long other => number = other
  | .float number, .float other => number = other
  | .double number, .double other => number = other
  | .bool truth, .bool other => truth = other
  | .bytes octets, .bytes other => octets = other
  | .event held, .event other => held.identical other
  | .raw store, .raw other => store.identical other
  | _, _ => false
termination_by structural left _ => left

def Store.identical : Store → Store → Bool
  | .map entries, .map others => identicalEntries entries others
  | .array values, .array others => identicalValues values others
  | .object identity className fields, .object other otherClassName others =>
      identity = other && className = otherClassName && identicalEntries fields others
  | .node node, .node other => node.same other
  | .record schema values, .record other others =>
      schema.same other && identicalValues values others
  | _, _ => false
termination_by structural left _ => left

def Event.identical : Event → Event → Bool
  | ⟨identity, type, store⟩, ⟨otherIdentity, otherType, otherStore⟩ =>
      identity = otherIdentity && type.same otherType && store.identical otherStore
termination_by structural left _ => left

def identicalEntries : List (String × Value) → List (String × Value) → Bool
  | [], [] => true
  | (name, value) :: entries, (otherName, other) :: others =>
      name = otherName && value.identical other && identicalEntries entries others
  | _, _ => false
termination_by structural left _ => left

def identicalValues : List Value → List Value → Bool
  | [], [] => true
  | value :: values, other :: others => value.identical other && identicalValues values others
  | _, _ => false
termination_by structural left _ => left

end

mutual

theorem Value.identical_self : (value : Value) → value.identical value = true
  | .null => rfl
  | .string _ => by simp [Value.identical]
  | .int _ => by simp [Value.identical]
  | .long _ => by simp [Value.identical]
  | .float _ => by simp [Value.identical]
  | .double _ => by simp [Value.identical]
  | .bool _ => by simp [Value.identical]
  | .bytes _ => by simp [Value.identical]
  | .event held => by simp [Value.identical, Event.identical_self held]
  | .raw store => by simp [Value.identical, Store.identical_self store]
termination_by structural value => value

theorem Store.identical_self : (store : Store) → store.identical store = true
  | .map entries => by simp [Store.identical, identicalEntries_self entries]
  | .array values => by simp [Store.identical, identicalValues_self values]
  | .object _ _ fields => by simp [Store.identical, identicalEntries_self fields]
  | .node node => by simp [Store.identical, XmlNode.same_self]
  | .record _ values => by
      simp [Store.identical, RecordSchema.same_self, identicalValues_self values]
termination_by structural store => store

theorem Event.identical_self : (event : Event) → event.identical event = true
  | ⟨_, _, store⟩ => by
      simp [Event.identical, EventType.same_self, Store.identical_self store]
termination_by structural event => event

theorem identicalEntries_self : (entries : List (String × Value)) →
    identicalEntries entries entries = true
  | [] => rfl
  | (_, value) :: entries => by
      simp [identicalEntries, Value.identical_self value, identicalEntries_self entries]
termination_by structural entries => entries

theorem identicalValues_self : (values : List Value) → identicalValues values values = true
  | [] => rfl
  | value :: values => by
      simp [identicalValues, Value.identical_self value, identicalValues_self values]
termination_by structural values => values

end

/-- Whether two events are one and the same. An event may hold another one many times over, so
the content is only looked at when the two do not lie at one place in memory. -/
def Event.same (event other : Event) : Bool :=
  withPtrEq event other (fun _ => event.identical other)
    (fun one => by rw [one, Event.identical_self])

@[simp] theorem Event.same_eq_identical (event other : Event) :
    event.same other = event.identical other :=
  rfl

def sameNames (entries others : List (String × Value)) : Bool :=
  entries.all (fun entry => (others.lookup entry.1).isSome) &&
    others.all (fun other => (entries.lookup other.1).isSome)

mutual

def Value.equals : Value → Value → Bool
  | .null, .null => true
  | .string text, .string other => text = other
  | .int number, .int other => number = other
  | .long number, .long other => number = other
  | .float number, .float other => number.agrees other
  | .double number, .double other => number.agrees other
  | .bool truth, .bool other => truth = other
  | .bytes octets, .bytes other => octets = other
  | .event held, .event other => held.same other || held.equals other
  | .raw store, .raw other => store.equals other
  | _, _ => false
termination_by structural left _ => left

def Store.equals : Store → Store → Bool
  | .map entries, .map others => sameNames entries others && entriesWithin [] entries others
  | .array values, .array others =>
      values.length = others.length && equalValues values others
  | .object identity _ _, .object other _ _ => identity = other
  | .node node, .node other => node.same other
  | .record schema values, .record other others => schema.same other && equalValues values others
  | _, _ => false
termination_by structural left _ => left

def Event.equals : Event → Event → Bool
  | ⟨_, type, store⟩, ⟨_, otherType, otherStore⟩ =>
      type.name = otherType.name && store.equals otherStore
termination_by structural left _ => left

/-- Whether each entry that counts has an equal counterpart among the others. The names seen
before mark the entries that do not count. -/
def entriesWithin : List String → List (String × Value) → List (String × Value) → Bool
  | _, [], _ => true
  | seen, (name, value) :: entries, others =>
      (seen.contains name ||
        match others.lookup name with
        | some other => value.equals other
        | none => false) &&
        entriesWithin (name :: seen) entries others
termination_by structural _ left _ => left

def equalValues : List Value → List Value → Bool
  | [], [] => true
  | value :: values, other :: others => value.equals other && equalValues values others
  | _, _ => false
termination_by structural left _ => left

end

end EventQuery
