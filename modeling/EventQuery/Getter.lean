import EventQuery.Failure
import EventQuery.Numeric.Reading
import EventQuery.Text.Blank
import EventQuery.Value

set_option autoImplicit false

/-! Getters. A getter reads one property from backing stores of one representation. It can
read the value, say whether there is one, and give the property as an event, its fragment. A
backing store of another representation reads as absent. A nested getter applies a second
getter to what the first one reads.

Each of the three is there twice: for a backing store, where every kind of getter has its own
way, and for an event, where the representation of the event's backing store is checked. -/

namespace EventQuery

inductive Getter where
  | mapEntry (name : String) (fragment : Option EventType)
  | arraySlot (index : Nat) (fragment : Option EventType)
  | beanField (accessor : BeanAccessor) (fragment : Option EventType)
  | xmlProperty (name : String) (type : AttributeType) (fragment : Option EventType)
  | recordField (position : Nat) (fragment : Option EventType)
  | nested (outer inner : Getter) (fragment : EventType)

/-- An event that is read from a property: an event that the property holds, or a new one of
the declared fragment type around a raw value. -/
inductive Fragment where
  | held (event : Event)
  | wrapped (type : EventType) (store : Store)

def Fragment.store : Fragment → Store
  | held event => event.store
  | wrapped _ store => store

def Fragment.type : Fragment → EventType
  | held event => event.type
  | wrapped type _ => type

/-- What a nested getter finds between its two parts. -/
inductive Intermediate where
  | event (held : Event)
  | raw (store : Store)
  | absent

namespace Value

/-- A raw value counts when it is of the representation that is read next. -/
def classify (expected : Representation) : Value → Intermediate
  | event held => .event held
  | raw store => if store.representation = expected then .raw store else .absent
  | _ => .absent

/-- A value as an event. A raw value becomes an event when a fragment type of its
representation is declared. -/
def fragment? (value : Value) (declared : Option EventType) : Option Fragment :=
  match value, declared with
  | event held, _ => some (.held held)
  | raw store, some type =>
      if store.representation = type.representation then some (.wrapped type store) else none
  | _, _ => none

/-- The value that an attribute or a text of a tree denotes under a declared type; text that
is not readable is absent. -/
def ofText (text : String) (type : AttributeType) : Value :=
  let trimmed := Text.trim text
  match type with
  | .string | .object => .string trimmed
  | .int => ((Numeric.readInt32? trimmed).map Value.int).getD .null
  | .long => ((Numeric.readInt64? trimmed).map Value.long).getD .null
  | .float => ((Numeric.readBinary32? trimmed).map Value.float).getD .null
  | .double => ((Numeric.readBinary64? trimmed).map Value.double).getD .null
  | .bool => ((Numeric.readBool? trimmed).map Value.bool).getD .null
  | .bytes => .bytes trimmed.toUTF8.toList

end Value

/-- A scalar property of an element: its attribute, or else the text of the first child
element of that name. -/
def XmlNode.scalar (node : XmlNode) (name : String) (type : AttributeType) : Value :=
  match node.attribute? name with
  | some text => .ofText text type
  | none =>
      match (node.child? name).bind XmlNode.text with
      | some text => .ofText text type
      | none => .null

namespace Getter

def representation : Getter → Representation
  | mapEntry _ _ => .map
  | arraySlot _ _ => .objectArray
  | beanField _ _ => .bean
  | xmlProperty _ _ _ => .xml
  | recordField _ _ => .avro
  | nested outer _ _ => outer.representation

/-- The slot of a backing store that a getter of one segment reads in place. -/
def slot? : Getter → Store → Option Value
  | mapEntry name _, .map entries => entries.lookup name
  | arraySlot index _, .array values => values[index]?
  | recordField position _, .record _ values => values[position]?
  | _, _ => none

def valueIn : Getter → Store → Value
  | beanField accessor _, .object _ className fields =>
      if className = accessor.className then (fields.lookup accessor.field).getD .null else .null
  | xmlProperty name type none, .node node => node.scalar name type
  | xmlProperty name _ (some _), .node node =>
      ((node.child? name).map (fun child => Value.raw (.node child))).getD .null
  | nested outer inner _, store =>
      match (outer.valueIn store).classify inner.representation with
      | .event held =>
          if held.store.representation = inner.representation then inner.valueIn held.store
          else .null
      | .raw intermediate => inner.valueIn intermediate
      | .absent => .null
  | getter, store => (getter.slot? store).getD .null

def presentIn : Getter → Store → Bool
  | beanField accessor declared, store => !((beanField accessor declared).valueIn store).isNull
  | xmlProperty name type declared, store =>
      !((xmlProperty name type declared).valueIn store).isNull
  | nested outer inner _, store =>
      match (outer.valueIn store).classify inner.representation with
      | .event held =>
          if held.store.representation = inner.representation then inner.presentIn held.store
          else false
      | .raw intermediate => inner.presentIn intermediate
      | .absent => false
  | getter, store => (getter.slot? store).any (fun value => !value.isNull)

/-- A nested getter that finds a raw value makes it an event of the type in between first. -/
def fragmentIn? : Getter → Store → Option Fragment
  | xmlProperty name _ declared, .node node =>
      match declared, node.child? name with
      | some type, some child => some (.wrapped type (.node child))
      | _, _ => none
  | nested outer inner type, store =>
      match (outer.valueIn store).classify inner.representation with
      | .event held =>
          if held.store.representation = inner.representation then inner.fragmentIn? held.store
          else none
      | .raw intermediate =>
          let wrapped := Fragment.wrapped type intermediate
          if wrapped.store.representation = inner.representation then
            inner.fragmentIn? wrapped.store
          else
            none
      | .absent => none
  | mapEntry name declared, store =>
      ((mapEntry name declared).slot? store).bind (fun value => value.fragment? declared)
  | arraySlot index declared, store =>
      ((arraySlot index declared).slot? store).bind (fun value => value.fragment? declared)
  | beanField accessor declared, store =>
      ((beanField accessor declared).valueIn store).fragment? declared
  | recordField position declared, store =>
      ((recordField position declared).slot? store).bind (fun value => value.fragment? declared)
  | _, _ => none

/-! ### Events

An event is given by its backing store, which must be of the representation that the getter
was built for. -/

def read (getter : Getter) (store : Store) : Except AccessError Value :=
  if store.representation = getter.representation then
    .ok (getter.valueIn store)
  else
    .error ⟨getter.representation, store.representation⟩

def readOrNull (getter : Getter) (store : Store) : Value :=
  match getter.read store with
  | .ok value => value
  | .error _ => .null

def present (getter : Getter) (store : Store) : Bool :=
  store.representation = getter.representation && getter.presentIn store

def fragment? (getter : Getter) (store : Store) : Option Fragment :=
  if store.representation = getter.representation then getter.fragmentIn? store else none

end Getter

structure CompiledProperty where
  getter : Getter
  type : AttributeType
  fragment : Option EventType

end EventQuery
