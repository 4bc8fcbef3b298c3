import EventQuery.Entries
import EventQuery.Proofs.Access.Paths

set_option autoImplicit false

/-! The three answers of a getter agree. What a getter reads decides whether there is a value and
which event it gives, although every kind of getter finds out on its own. -/

namespace EventQuery

namespace Store

def values : Store → List Value
  | map entries => entries.map Prod.snd
  | array values => values
  | object _ _ fields => fields.map Prod.snd
  | node _ => []
  | record _ values => values

/-- The event is in the backing store, at any depth. -/
inductive Contains : Store → Event → Prop
  | held {store : Store} {held : Event} : .event held ∈ store.values → Contains store held
  | inEvent {store : Store} {outer inner : Event} : .event outer ∈ store.values →
      Contains outer.store inner → Contains store inner
  | inRaw {store raw : Store} {inner : Event} : .raw raw ∈ store.values → Contains raw inner →
      Contains store inner

/-- The events in the backing store are of types of their own representation. -/
def Backed (store : Store) : Prop :=
  ∀ held, store.Contains held → held.type.representation = held.store.representation

end Store

namespace Value

def Contains (value : Value) (inner : Event) : Prop :=
  match value with
  | event outer => outer = inner ∨ outer.store.Contains inner
  | raw store => store.Contains inner
  | _ => False

def Plain (value : Value) : Prop :=
  value.event? = none ∧ value.store? = none

theorem plain_getD {α : Type} {read : α → Value} (plain : ∀ number, (read number).Plain)
    (number? : Option α) : ((number?.map read).getD .null).Plain := by
  cases number? with
  | none => exact ⟨rfl, rfl⟩
  | some number => exact plain number

theorem plain_ofText (text : String) (type : AttributeType) : (ofText text type).Plain := by
  cases type with
  | string => exact ⟨rfl, rfl⟩
  | object => exact ⟨rfl, rfl⟩
  | bytes => exact ⟨rfl, rfl⟩
  | _ =>
      simp only [ofText]
      apply plain_getD
      intro number
      exact ⟨rfl, rfl⟩

theorem plain_scalar (node : XmlNode) (name : String) (type : AttributeType) :
    (node.scalar name type).Plain := by
  unfold XmlNode.scalar
  split
  · exact plain_ofText _ type
  · split
    · exact plain_ofText _ type
    · exact ⟨rfl, rfl⟩

theorem Plain.not_contains {value : Value} (plain : value.Plain) (inner : Event) :
    ¬value.Contains inner := by
  intro contains
  cases value with
  | event outer => cases plain.1
  | raw store => cases plain.2
  | _ => exact contains

theorem Plain.fragment?_eq {value : Value} (plain : value.Plain) (declared : Option EventType) :
    value.fragment? declared = none := by
  cases value with
  | event outer => cases plain.1
  | raw store => cases plain.2
  | _ => rfl

end Value

theorem Store.contains_of_mem {store : Store} {value : Value} {inner : Event}
    (member : value ∈ store.values) (contains : value.Contains inner) : store.Contains inner := by
  cases value with
  | event outer =>
      rcases contains with same | deeper
      · subst same
        exact .held member
      · exact .inEvent member deeper
  | raw raw => exact .inRaw member contains
  | _ => exact contains.elim

namespace Value

theorem representation_of_classify {expected : Representation} {value : Value} {store : Store}
    (found : value.classify expected = .raw store) : store.representation = expected := by
  unfold classify at found
  split at found
  · cases found
  · split at found
    · rename_i same
      cases found
      exact same
    · cases found
  · cases found

/-- The backing store that a nested getter continues with, if the value has one of the
representation that comes next. -/
def inside? (expected : Representation) (value : Value) : Option Store :=
  match value.classify expected with
  | .event held => if held.store.representation = expected then some held.store else none
  | .raw store => some store
  | .absent => none

theorem contains_of_inside? {expected : Representation} {value : Value} {store : Store}
    {inner : Event} (found : value.inside? expected = some store)
    (contains : store.Contains inner) : value.Contains inner := by
  cases value with
  | event held =>
      simp only [inside?, classify, Option.ite_none_right_eq_some] at found
      obtain ⟨_, same⟩ := found
      cases same
      exact .inr contains
  | raw raw =>
      by_cases same : raw.representation = expected
      · simp only [inside?, classify, if_pos same] at found
        cases found
        exact contains
      · simp only [inside?, classify, if_neg same] at found
        cases found
  | _ => cases found

end Value

namespace Getter

theorem valueIn_nested (outer inner : Getter) (type : EventType) (store : Store) :
    (nested outer inner type).valueIn store =
      ((outer.valueIn store).inside? inner.representation).elim .null inner.valueIn := by
  simp only [valueIn, Value.inside?]
  cases (outer.valueIn store).classify inner.representation with
  | event held =>
      by_cases same : held.store.representation = inner.representation
      · simp only [if_pos same, Option.elim_some]
      · simp only [if_neg same, Option.elim_none]
  | raw intermediate => rfl
  | absent => rfl

theorem presentIn_nested (outer inner : Getter) (type : EventType) (store : Store) :
    (nested outer inner type).presentIn store =
      ((outer.valueIn store).inside? inner.representation).elim false inner.presentIn := by
  simp only [presentIn, Value.inside?]
  cases (outer.valueIn store).classify inner.representation with
  | event held =>
      by_cases same : held.store.representation = inner.representation
      · simp only [if_pos same, Option.elim_some]
      · simp only [if_neg same, Option.elim_none]
  | raw intermediate => rfl
  | absent => rfl

theorem fragmentIn?_nested (outer inner : Getter) (type : EventType) (store : Store) :
    (nested outer inner type).fragmentIn? store =
      ((outer.valueIn store).inside? inner.representation).bind inner.fragmentIn? := by
  simp only [fragmentIn?, Value.inside?, Fragment.store]
  cases found : (outer.valueIn store).classify inner.representation with
  | event held =>
      by_cases same : held.store.representation = inner.representation
      · simp only [if_pos same, Option.bind_some]
      · simp only [if_neg same, Option.bind_none]
  | raw intermediate => exact if_pos (Value.representation_of_classify found)
  | absent => rfl

theorem present_slot (slot? : Option Value) :
    slot?.any (fun value => !value.isNull) = !(slot?.getD .null).isNull := by
  cases slot? with
  | none => rfl
  | some value => rfl

theorem presentIn_eq (getter : Getter) (store : Store) :
    getter.presentIn store = !(getter.valueIn store).isNull := by
  induction getter generalizing store with
  | nested outer inner type _ ih =>
      rw [presentIn_nested, valueIn_nested]
      cases (outer.valueIn store).inside? inner.representation with
      | none => rfl
      | some intermediate => exact ih intermediate
  | beanField accessor declared => rfl
  | xmlProperty name type declared => rfl
  | mapEntry name declared => exact present_slot _
  | arraySlot index declared => exact present_slot _
  | recordField position declared => exact present_slot _

theorem fragment?_slot (slot? : Option Value) (declared : Option EventType) :
    slot?.bind (fun value => value.fragment? declared) =
      (slot?.getD .null).fragment? declared := by
  cases slot? with
  | none => rfl
  | some value => rfl

theorem fragmentIn?_xmlProperty {name : String} {type : AttributeType}
    {fragment : Option EventType} (trees : ∀ type ∈ fragment, type.representation = .xml)
    (store : Store) : (xmlProperty name type fragment).fragmentIn? store =
      ((xmlProperty name type fragment).valueIn store).fragment? fragment := by
  cases fragment with
  | none =>
      cases store with
      | node node => exact ((Value.plain_scalar node name type).fragment?_eq none).symm
      | _ => rfl
  | some fragment =>
      cases store with
      | node node =>
          simp only [fragmentIn?, valueIn]
          cases node.child? name with
          | none => rfl
          | some child => exact (if_pos (trees fragment rfl).symm).symm
      | _ => rfl

theorem fragmentIn?_eq {getter : Getter} (wellFormed : getter.WellFormed) (store : Store) :
    getter.fragmentIn? store = (getter.valueIn store).fragment? getter.declared := by
  induction getter generalizing store with
  | nested outer inner type _ ih =>
      rw [fragmentIn?_nested, valueIn_nested]
      cases (outer.valueIn store).inside? inner.representation with
      | none => rfl
      | some intermediate => exact ih wellFormed.2.1 intermediate
  | beanField accessor fragment => rfl
  | xmlProperty name type fragment => exact fragmentIn?_xmlProperty wellFormed store
  | mapEntry name fragment => exact fragment?_slot _ fragment
  | arraySlot index fragment => exact fragment?_slot _ fragment
  | recordField position fragment => exact fragment?_slot _ fragment

/-! ### Events that are read -/

theorem mem_values_of_lookup {entries : List (String × Value)} {name : String} {value : Value}
    (found : entries.lookup name = some value) : value ∈ entries.map Prod.snd :=
  List.mem_map_of_mem (Entries.mem_of_lookup found)

theorem contains_getD {store : Store} {slot? : Option Value} {inner : Event}
    (members : ∀ value ∈ slot?, value ∈ store.values)
    (contains : (slot?.getD .null).Contains inner) : store.Contains inner := by
  cases slot? with
  | none => exact contains.elim
  | some value => exact store.contains_of_mem (members value rfl) contains

/-- Reading finds no event that the backing store does not hold. -/
theorem contains_of_valueIn {getter : Getter} {store : Store} {inner : Event}
    (contains : (getter.valueIn store).Contains inner) : store.Contains inner := by
  induction getter generalizing store with
  | nested outer rest type ihOuter ihRest =>
      rw [valueIn_nested] at contains
      cases found : (outer.valueIn store).inside? rest.representation with
      | none =>
          rw [found] at contains
          exact contains.elim
      | some intermediate =>
          rw [found] at contains
          exact ihOuter (Value.contains_of_inside? found (ihRest contains))
  | beanField accessor fragment =>
      cases store with
      | object identity className fields =>
          simp only [valueIn] at contains
          split at contains
          · exact contains_getD (fun _ found => mem_values_of_lookup found) contains
          · exact contains.elim
      | _ => exact contains.elim
  | xmlProperty name type fragment =>
      cases fragment with
      | none =>
          cases store with
          | node node =>
              exact ((Value.plain_scalar node name type).not_contains inner contains).elim
          | _ => exact contains.elim
      | some fragment =>
          cases store with
          | node node =>
              simp only [valueIn] at contains
              cases found : node.child? name with
              | none =>
                  rw [found] at contains
                  exact contains.elim
              | some child =>
                  -- A tree holds no events.
                  rw [found] at contains
                  cases contains with
                  | held member => cases member
                  | inEvent member _ => cases member
                  | inRaw member _ => cases member
          | _ => exact contains.elim
  | mapEntry name fragment =>
      cases store with
      | map entries => exact contains_getD (fun _ found => mem_values_of_lookup found) contains
      | _ => exact contains.elim
  | arraySlot index fragment =>
      cases store with
      | array values => exact contains_getD (fun _ found => List.mem_of_getElem? found) contains
      | _ => exact contains.elim
  | recordField position fragment =>
      cases store with
      | record schema values =>
          exact contains_getD (fun _ found => List.mem_of_getElem? found) contains
      | _ => exact contains.elim

theorem backed_fragment {value : Value} {declared : Option EventType} {fragment : Fragment}
    (backed : ∀ held, value.Contains held → held.type.representation = held.store.representation)
    (found : value.fragment? declared = some fragment) :
    fragment.type.representation = fragment.store.representation := by
  cases value with
  | event held =>
      cases found
      exact backed held (.inl rfl)
  | raw store =>
      cases declared with
      | none => cases found
      | some type =>
          simp only [Value.fragment?, Option.ite_none_right_eq_some] at found
          obtain ⟨same, made⟩ := found
          cases made
          exact same.symm
  | _ => cases found

theorem read_eq {getter : Getter} {store : Store}
    (same : store.representation = getter.representation) :
    getter.read store = .ok (getter.valueIn store) :=
  if_pos same

theorem read_foreign {getter : Getter} {store : Store}
    (different : store.representation ≠ getter.representation) :
    getter.read store = .error ⟨getter.representation, store.representation⟩ :=
  if_neg different

theorem present_iff (getter : Getter) (store : Store) :
    getter.present store = true ↔
      ∃ value, getter.read store = .ok value ∧ value.isNull = false := by
  unfold present
  rw [presentIn_eq]
  by_cases same : store.representation = getter.representation
  · rw [read_eq same, decide_eq_true same]
    simp
  · rw [read_foreign same, decide_eq_false same]
    simp

theorem fragment?_eq {getter : Getter} (wellFormed : getter.WellFormed) (store : Store) :
    getter.fragment? store =
      match getter.read store with
      | .ok value => value.fragment? getter.declared
      | .error _ => none := by
  unfold fragment?
  by_cases same : store.representation = getter.representation
  · rw [if_pos same, read_eq same, fragmentIn?_eq wellFormed]
  · rw [if_neg same, read_foreign same]

/-- A compiled getter finds a value exactly where it reads one, and it gives the event that the
value it reads gives. Where the events of the backing store are of types of their own
representation, so is the event that it gives. -/
theorem capabilities_agree {registry : Registry} {type : EventType} {path : String}
    {compiled : CompiledProperty} (built : ofPath registry type path = .ok compiled)
    (store : Store) :
    (compiled.getter.present store = true ↔
      ∃ value, compiled.getter.read store = .ok value ∧ value.isNull = false) ∧
    (compiled.getter.fragment? store =
      match compiled.getter.read store with
      | .ok value => value.fragment? compiled.fragment
      | .error _ => none) ∧
    (store.Backed → ∀ fragment, compiled.getter.fragment? store = some fragment →
      fragment.type.representation = fragment.store.representation) := by
  have builtFor := builtFor_ofSegments built
  have agrees := fragment?_eq builtFor.wellFormed store
  rw [builtFor.declared] at agrees
  refine ⟨present_iff compiled.getter store, agrees, ?_⟩
  intro backed fragment found
  by_cases same : store.representation = compiled.getter.representation
  · rw [agrees, read_eq same] at found
    apply backed_fragment _ found
    intro held contains
    exact backed held (contains_of_valueIn contains)
  · rw [agrees, read_foreign same] at found
    cases found

private def customer : EventType := .objectArray "Customer" [.scalar "name" .string]

private def order : EventType := .map "Order" [.ofFragment "customer" "Customer"]

private def orders : Registry := ⟨[order, customer]⟩

private def unnamed : Store := .map [("customer", .raw (.array [.null]))]

/-- A customer without a name is an event, and there is no name to read. -/
theorem capabilities_agree_unnamed :
    ∃ whole name : CompiledProperty, ofPath orders order "customer" = .ok whole ∧
      ofPath orders order "customer.name" = .ok name ∧
      whole.getter.fragment? unnamed = some (.wrapped customer (.array [.null])) ∧
      name.getter.present unnamed = false := by
  have built : ofPath orders order "customer" =
      .ok ⟨.mapEntry "customer" (some customer), .object, some customer⟩ := rfl
  have namedBuilt : ofPath orders order "customer.name" =
      .ok ⟨.nested (.mapEntry "customer" (some customer)) (.arraySlot 0 none) customer,
        .string, none⟩ := rfl
  refine ⟨_, _, built, namedBuilt, ?_, ?_⟩
  · exact (capabilities_agree built unnamed).2.1
  · rw [← Bool.not_eq_true, (capabilities_agree namedBuilt unnamed).1]
    intro exist
    obtain ⟨value, read, present⟩ := exist
    cases read
    cases present
end Getter

end EventQuery
