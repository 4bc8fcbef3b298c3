import EventQuery.Value.Equality

set_option autoImplicit false

/-! Identity of values. Values are one and the same exactly when they are equal as data, since
events and objects carry their identities; so events can be counted. -/

namespace EventQuery

theorem EventType.eq_of_same {type other : EventType} (same : type.same other = true) :
    type = other := by
  cases type <;> cases other <;> simp only [EventType.same, Bool.and_eq_true, decide_eq_true_eq,
    Bool.false_eq_true] at same
  case map.map => rw [same.1, same.2]
  case objectArray.objectArray => rw [same.1, same.2]
  case bean.bean => rw [same.1.1, same.1.2, same.2]
  case xml.xml => rw [same.1.1, same.1.2, same.2]
  case avro.avro => rw [RecordSchema.same_iff_eq.mp same]

mutual

theorem XmlNode.eq_of_same : (node other : XmlNode) → node.same other = true → node = other
  | ⟨_, _, children, _⟩, ⟨_, _, others, _⟩, same => by
      simp only [XmlNode.same, Bool.and_eq_true, decide_eq_true_eq] at same
      obtain ⟨⟨⟨rfl, rfl⟩, below⟩, rfl⟩ := same
      rw [eq_of_sameChildren children others below]
termination_by structural node => node

theorem eq_of_sameChildren : (children others : List XmlNode) →
    sameChildren children others = true → children = others
  | [], [], _ => rfl
  | child :: children, other :: others, same => by
      simp only [sameChildren, Bool.and_eq_true] at same
      rw [XmlNode.eq_of_same child other same.1, eq_of_sameChildren children others same.2]
  | [], _ :: _, unequal => by cases unequal
  | _ :: _, [], unequal => by cases unequal
termination_by structural children => children

end

mutual

theorem Value.eq_of_identical : (value other : Value) → value.identical other = true →
    value = other
  | .event held, .event other, same => by rw [Event.eq_of_identical held other same]
  | .raw store, .raw other, same => by rw [Store.eq_of_identical store other same]
  | .null, .null, _ => rfl
  | .string _, .string _, same => by rw [of_decide_eq_true same]
  | .int _, .int _, same => by rw [of_decide_eq_true same]
  | .long _, .long _, same => by rw [of_decide_eq_true same]
  | .float _, .float _, same => by rw [of_decide_eq_true same]
  | .double _, .double _, same => by rw [of_decide_eq_true same]
  | .bool _, .bool _, same => by rw [of_decide_eq_true same]
  | .bytes _, .bytes _, same => by rw [of_decide_eq_true same]
termination_by structural value => value

theorem Store.eq_of_identical : (store other : Store) → store.identical other = true →
    store = other
  | .map entries, .map others, same => by rw [eq_of_identicalEntries entries others same]
  | .array values, .array others, same => by rw [eq_of_identicalValues values others same]
  | .object _ _ fields, .object _ _ others, same => by
      simp only [Store.identical, Bool.and_eq_true, decide_eq_true_eq] at same
      rw [same.1.1, same.1.2, eq_of_identicalEntries fields others same.2]
  | .node node, .node other, same => by rw [XmlNode.eq_of_same node other same]
  | .record _ values, .record _ others, same => by
      simp only [Store.identical, Bool.and_eq_true] at same
      rw [RecordSchema.same_iff_eq.mp same.1, eq_of_identicalValues values others same.2]
termination_by structural store => store

theorem Event.eq_of_identical : (event other : Event) → event.identical other = true →
    event = other
  | ⟨_, _, store⟩, ⟨_, _, other⟩, same => by
      simp only [Event.identical, Bool.and_eq_true, decide_eq_true_eq] at same
      rw [same.1.1, EventType.eq_of_same same.1.2, Store.eq_of_identical store other same.2]
termination_by structural event => event

theorem eq_of_identicalEntries : (entries others : List (String × Value)) →
    identicalEntries entries others = true → entries = others
  | [], [], _ => rfl
  | (_, value) :: entries, (_, other) :: others, same => by
      simp only [identicalEntries, Bool.and_eq_true, decide_eq_true_eq] at same
      rw [same.1.1, Value.eq_of_identical value other same.1.2,
        eq_of_identicalEntries entries others same.2]
  | [], _ :: _, unequal => by cases unequal
  | _ :: _, [], unequal => by cases unequal
termination_by structural entries => entries

theorem eq_of_identicalValues : (values others : List Value) →
    identicalValues values others = true → values = others
  | [], [], _ => rfl
  | value :: values, other :: others, same => by
      simp only [identicalValues, Bool.and_eq_true] at same
      rw [Value.eq_of_identical value other same.1, eq_of_identicalValues values others same.2]
  | [], _ :: _, unequal => by cases unequal
  | _ :: _, [], unequal => by cases unequal
termination_by structural values => values

end

theorem Event.identical_iff_eq {event other : Event} :
    event.identical other = true ↔ event = other := by
  constructor
  · exact Event.eq_of_identical event other
  · rintro rfl
    exact event.identical_self

instance : DecidableEq Event :=
  fun _ _ => decidable_of_iff _ Event.identical_iff_eq

theorem Event.same_eq_beq (event other : Event) : event.same other = (event == other) := by
  rw [Event.same_eq_identical, Bool.eq_iff_iff, Event.identical_iff_eq, beq_iff_eq]

end EventQuery
