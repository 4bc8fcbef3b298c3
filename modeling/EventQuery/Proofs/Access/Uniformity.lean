import EventQuery.Proofs.Access.Capabilities
import EventQuery.Proofs.Access.Written
import Mathlib.Data.List.Nodup

set_option autoImplicit false

/-! One assignment of values in all representations. Five ways to store the values of some
properties look a property up in five ways; each of them gives the value that the property has,
and null where it has none. -/

namespace EventQuery

/-- A property with the value that it has in an event. -/
structure Assigned where
  name : String
  type : AttributeType
  value : Value

/-- Properties of different names, each of them one segment of a path, with their values. -/
structure Assignment where
  all : List Assigned
  distinct : (all.map Assigned.name).Nodup
  named : ∀ entry ∈ all, entry.name ≠ ""
  undotted : ∀ entry ∈ all, '.' ∉ entry.name.toList

def Assigned.descriptor (entry : Assigned) : PropertyDescriptor :=
  .scalar entry.name entry.type

/-- What an accessor returns for an object: the field of an object of its class, and null where
the object has no such field or is of another class. -/
inductive BeanAccessor.Returns (accessor : BeanAccessor) : Store → Value → Prop
  | field {identity fields value} : fields.lookup accessor.field = some value →
      Returns accessor (.object identity accessor.className fields) value
  | missing {identity fields} : fields.lookup accessor.field = none →
      Returns accessor (.object identity accessor.className fields) .null
  | foreign {identity className fields} : className ≠ accessor.className →
      Returns accessor (.object identity className fields) .null

/-- The values of a record after some fields were set one after the other; `none` when the schema
lacks one of them. -/
def Store.putAll? (schema : RecordSchema) : List Value → List (String × Value) →
    Option (List Value)
  | values, [] => some values
  | values, (name, value) :: puts =>
      (putField? schema values name value).bind (fun values => putAll? schema values puts)

namespace Assignment

variable (assignment : Assignment)

def properties : List PropertyDescriptor :=
  assignment.all.map Assigned.descriptor

def beanProperties (accessor : String → BeanAccessor) : List BeanProperty :=
  assignment.all.map (fun entry => ⟨entry.descriptor, accessor entry.name⟩)

def schema (name : String) : RecordSchema :=
  ⟨name, assignment.all.map (fun entry => ⟨entry.name, .scalar entry.type⟩)⟩

/-- The pairs give the properties their values, in any order; null may be left out. -/
structure Gives (puts : List (String × Value)) : Prop where
  right : ∀ put ∈ puts, ∀ entry ∈ assignment.all, put.1 = entry.name → put.2 = entry.value
  complete : ∀ entry ∈ assignment.all, entry.value = .null ∨ (entry.name, entry.value) ∈ puts

def Knows (puts : List (String × Value)) : Prop :=
  ∀ put ∈ puts, ∃ entry ∈ assignment.all, entry.name = put.1

/-- Every value that is not null is written in the tree, as an attribute or as the text of a
child element. -/
structure WrittenIn (node : XmlNode) : Prop where
  attributes : ∀ pair ∈ node.attributes, ∀ entry ∈ assignment.all,
    pair.1 = entry.name → entry.value.written? = some pair.2
  children : ∀ child ∈ node.children, ∀ entry ∈ assignment.all,
    child.name = entry.name → child.text.isSome ∧ entry.value.written? = child.text
  complete : ∀ entry ∈ assignment.all, entry.value = .null ∨
    (∃ text, (entry.name, text) ∈ node.attributes) ∨
    ∃ child ∈ node.children, child.name = entry.name

/-- The type declares the properties, and the backing store holds their values as stores of its
representation do. -/
inductive Presents : EventType → Store → Prop
  | map {name entries} : assignment.Gives entries →
      Presents (.map name assignment.properties) (.map entries)
  /-- The values stand in the order of the declaration; nulls may be cut off at the end. -/
  | array {name values rest} : assignment.all.map Assigned.value = values ++ rest →
      (∀ value ∈ rest, value = .null) →
      Presents (.objectArray name assignment.properties) (.array values)
  | bean {name className accessor identity objectClass fields} :
      (∀ entry ∈ assignment.all,
        (accessor entry.name).Returns (.object identity objectClass fields) entry.value) →
      Presents (.bean name className (assignment.beanProperties accessor))
        (.object identity objectClass fields)
  | record {name puts values} : assignment.Gives puts → assignment.Knows puts →
      Store.putAll? (assignment.schema name) (Store.emptyRecord (assignment.schema name)) puts =
        some values →
      Presents (.avro (assignment.schema name)) (.record (assignment.schema name) values)
  | tree {name root node} :
      (∀ entry ∈ assignment.all, entry.value = .null ∨ entry.value.Textual entry.type) →
      assignment.WrittenIn node →
      Presents (.xml name root assignment.properties) (.node node)

end Assignment

def Assigned.ReadFrom (entry : Assigned) (registry : Registry) (type : EventType)
    (store : Store) : Prop :=
  ∃ compiled, Getter.ofPath registry type entry.name = .ok compiled ∧
    compiled.type = entry.type ∧ compiled.getter.read store = .ok entry.value ∧
    compiled.getter.present store = !entry.value.isNull

namespace Assignment

variable {assignment : Assignment} {entry other : Assigned}

theorem eq_of_name (member : entry ∈ assignment.all) (inside : other ∈ assignment.all)
    (same : other.name = entry.name) : other = entry :=
  List.inj_on_of_nodup_map assignment.distinct inside member same

theorem find?_name (member : entry ∈ assignment.all) :
    assignment.all.find? (fun other => other.name = entry.name) = some entry := by
  cases found : assignment.all.find? (fun other => other.name = entry.name) with
  | none =>
      have absent := List.find?_eq_none.mp found entry member
      simp at absent
  | some other =>
      have same := List.find?_some found
      rw [eq_of_name member (List.mem_of_find?_eq_some found) (of_decide_eq_true same)]

theorem findIdx?_name (member : entry ∈ assignment.all) :
    ∃ index, assignment.all.findIdx? (fun other => other.name = entry.name) = some index ∧
      assignment.all[index]? = some entry := by
  cases found : assignment.all.findIdx? (fun other => other.name = entry.name) with
  | none =>
      have absent := List.findIdx?_eq_none_iff.mp found entry member
      simp at absent
  | some index =>
      obtain ⟨inside, matching, _⟩ := List.findIdx?_eq_some_iff_getElem.mp found
      have same : assignment.all[index].name = entry.name := of_decide_eq_true matching
      refine ⟨index, rfl, ?_⟩
      rw [List.getElem?_eq_getElem inside, eq_of_name member (List.getElem_mem inside) same]

variable {type : EventType} {store : Store}

theorem Presents.properties_eq (presents : assignment.Presents type store) :
    type.properties = assignment.properties := by
  cases presents with
  | bean => exact List.map_map
  | record => exact List.map_map
  | _ => rfl

theorem segments_name (member : entry ∈ assignment.all) :
    Text.segments entry.name = [entry.name] :=
  Text.segments_of_undotted (assignment.undotted entry member)

theorem ofPath_of_declared (registry : Registry) {getter : Getter}
    (declares : type.properties = assignment.properties) (member : entry ∈ assignment.all)
    (made : Getter.ofDeclared? type entry.descriptor none = some getter) :
    Getter.ofPath registry type entry.name = .ok ⟨getter, entry.type, none⟩ := by
  have declared : type.property? entry.name = some entry.descriptor := by
    unfold EventType.property?
    rw [declares, properties, List.find?_map]
    exact congrArg (Option.map Assigned.descriptor) (find?_name member)
  have unchecked : Getter.checkFragment type entry.name none = .ok () := by
    cases type <;> rfl
  unfold Getter.ofPath
  rw [segments_name member, Getter.ofSegments_one_eq_ok_iff]
  refine ⟨assignment.named entry member, ?_⟩
  unfold Getter.ofProperty
  rw [declared]
  dsimp only
  rw [Checked.bind_eq_ok_iff]
  refine ⟨none, rfl, Checked.bind_eq_ok_iff.mpr ⟨(), unchecked, ?_⟩⟩
  rw [made]
  rfl

theorem valueIn_map {entries : List (String × Value)} (gives : assignment.Gives entries)
    (member : entry ∈ assignment.all) :
    (Getter.mapEntry entry.name none).valueIn (.map entries) = entry.value := by
  change (entries.lookup entry.name).getD .null = entry.value
  cases found : entries.lookup entry.name with
  | some value => exact gives.right _ (Entries.mem_of_lookup found) entry member rfl
  | none =>
      rcases gives.complete entry member with absent | given
      · exact absent.symm
      · have other := List.lookup_eq_none_iff.mp found _ given
        simp at other

theorem valueIn_array {values rest : List Value} {index : Nat}
    (split : assignment.all.map Assigned.value = values ++ rest)
    (cut : ∀ value ∈ rest, value = .null) (found : assignment.all[index]? = some entry) :
    (Getter.arraySlot index none).valueIn (.array values) = entry.value := by
  have whole : (values ++ rest)[index]? = some entry.value := by
    rw [← split, List.getElem?_map, found]
    rfl
  change (values[index]?).getD .null = entry.value
  rw [List.getElem?_append] at whole
  split at whole
  · rw [whole]
    rfl
  · rename_i outside
    rw [List.getElem?_eq_none (Nat.le_of_not_lt outside), cut _ (List.mem_of_getElem? whole)]
    rfl

theorem valueIn_bean {accessor : BeanAccessor} {value : Value}
    (returns : accessor.Returns store value) :
    (Getter.beanField accessor none).valueIn store = value := by
  cases returns with
  | field found => simp only [Getter.valueIn, found, if_true, Option.getD_some]
  | missing absent => simp only [Getter.valueIn, absent, if_true, Option.getD_none]
  | foreign different => simp only [Getter.valueIn, if_neg different]

theorem valueIn_tree {node : XmlNode}
    (textual : entry.value = .null ∨ entry.value.Textual entry.type)
    (written : assignment.WrittenIn node) (member : entry ∈ assignment.all) :
    (Getter.xmlProperty entry.name entry.type none).valueIn (.node node) = entry.value := by
  have read {text : String} (here : entry.value.written? = some text) :
      Value.ofText text entry.type = entry.value := by
    rcases textual with absent | textual
    · rw [absent] at here
      cases here
    · exact Value.ofText_written textual here
  change node.scalar entry.name entry.type = entry.value
  unfold XmlNode.scalar XmlNode.attribute? XmlNode.child?
  cases listing : node.attributes.lookup entry.name with
  | some text =>
      exact read (written.attributes _ (Entries.mem_of_lookup listing) entry member rfl)
  | none =>
      dsimp only
      cases found : node.children.find? (fun child => child.name = entry.name) with
      | some child =>
          have called := List.find?_some found
          obtain ⟨shown, same⟩ :=
            written.children child (List.mem_of_find?_eq_some found) entry member
              (of_decide_eq_true called)
          obtain ⟨text, here⟩ := Option.isSome_iff_exists.mp shown
          rw [Option.bind_some, here]
          exact read (same.trans here)
      | none =>
          rcases written.complete entry member with absent | ⟨text, listed⟩ | ⟨child, listed, called⟩
          · exact absent.symm
          · have other := List.lookup_eq_none_iff.mp listing _ listed
            simp at other
          · have other := List.find?_eq_none.mp found child listed
            simp [called] at other

theorem fieldPosition?_eq (assignment : Assignment) (name field : String) :
    (assignment.schema name).fieldPosition? field =
      assignment.all.findIdx? (fun other => other.name = field) :=
  List.findIdx?_map

theorem putAll?_of_knows (name : String) {puts : List (String × Value)} {values : List Value}
    (knows : assignment.Knows puts) (sized : values.length = assignment.all.length) :
    ∃ filled, Store.putAll? (assignment.schema name) values puts = some filled ∧
      ∀ entry : Assigned, ∀ index,
        assignment.all.findIdx? (fun other => other.name = entry.name) = some index →
        (∀ put ∈ puts, put.1 = entry.name → put.2 = entry.value) →
        (filled[index]? = values[index]? ∨ filled[index]? = some entry.value) ∧
          ((entry.name, entry.value) ∈ puts → filled[index]? = some entry.value) := by
  induction puts generalizing values with
  | nil =>
      refine ⟨values, rfl, ?_⟩
      intro entry index _ _
      refine ⟨.inl rfl, ?_⟩
      intro member
      cases member
  | cons put puts ih =>
      obtain ⟨field, value⟩ := put
      obtain ⟨target, inside, called⟩ := knows _ List.mem_cons_self
      dsimp only at called
      subst called
      obtain ⟨position, found, there⟩ := findIdx?_name inside
      have set : Store.putField? (assignment.schema name) values target.name value =
          some (values.set position value) := by
        unfold Store.putField?
        rw [fieldPosition?_eq, found]
        rfl
      obtain ⟨filled, run, kept⟩ := @ih (values.set position value)
        (fun put member => knows put (List.mem_cons_of_mem _ member))
        (List.length_set.trans sized)
      refine ⟨filled, ?_, ?_⟩
      · rw [Store.putAll?, set]
        exact run
      · intro entry index here right
        have later := kept entry index here
          (fun put member => right put (List.mem_cons_of_mem _ member))
        by_cases own : target.name = entry.name
        · rw [own, here] at found
          cases found
          have below : position < values.length := by
            rw [sized]
            exact (List.getElem?_eq_some_iff.mp there).1
          have same : value = entry.value := right _ List.mem_cons_self own
          rw [List.getElem?_set_self below, same, or_self] at later
          exact ⟨.inr later.1, fun _ => later.1⟩
        -- Two names have two positions, so setting one field leaves the other as it is.
        · have apart : position ≠ index := by
            rintro rfl
            apply own
            have first := (List.findIdx?_eq_some_iff_getElem.mp found).2.1
            have second := (List.findIdx?_eq_some_iff_getElem.mp here).2.1
            exact (of_decide_eq_true first).symm.trans (of_decide_eq_true second)
          rw [List.getElem?_set_ne apart] at later
          refine ⟨later.1, fun member => later.2 ?_⟩
          rcases List.mem_cons.mp member with first | rest
          · exact absurd (congrArg Prod.fst first).symm own
          · exact rest

theorem valueIn_record {name : String} {puts : List (String × Value)} {values : List Value}
    {index : Nat} (gives : assignment.Gives puts) (knows : assignment.Knows puts)
    (filled : Store.putAll? (assignment.schema name)
      (Store.emptyRecord (assignment.schema name)) puts = some values)
    (member : entry ∈ assignment.all)
    (found : assignment.all.findIdx? (fun other => other.name = entry.name) = some index) :
    (Getter.recordField index none).valueIn (.record (assignment.schema name) values) =
      entry.value := by
  have sized : (Store.emptyRecord (assignment.schema name)).length = assignment.all.length := by
    rw [Store.emptyRecord, List.length_map, schema, List.length_map]
  obtain ⟨values', run, kept⟩ := putAll?_of_knows name knows sized
  cases filled.symm.trans run
  obtain ⟨held, set⟩ := kept entry index found
    (fun put inside same => gives.right put inside entry member same)
  have here : values[index]? = some entry.value := by
    rcases gives.complete entry member with absent | given
    · rcases held with same | same
      · have below : index < assignment.all.length :=
          (List.findIdx?_eq_some_iff_getElem.mp found).1
        rw [same, absent, List.getElem?_eq_getElem (by rw [sized]; exact below)]
        simp [Store.emptyRecord]
      · exact same
    · exact set given
  change (values[index]?).getD .null = entry.value
  rw [here]
  rfl

/-! ### Uniform access -/

theorem readFrom_of_valueIn (registry : Registry) {getter : Getter}
    (declares : type.properties = assignment.properties) (member : entry ∈ assignment.all)
    (made : Getter.ofDeclared? type entry.descriptor none = some getter)
    (fits : store.representation = getter.representation)
    (value : getter.valueIn store = entry.value) : entry.ReadFrom registry type store := by
  refine ⟨_, ofPath_of_declared registry declares member made, rfl, ?_, ?_⟩
  · rw [Getter.read_eq fits, value]
  · rw [Getter.present, decide_eq_true fits, Bool.true_and, Getter.presentIn_eq, value]

theorem readFrom_of_presents (registry : Registry) (presents : assignment.Presents type store)
    (member : entry ∈ assignment.all) : entry.ReadFrom registry type store := by
  have declares := presents.properties_eq
  cases presents with
  | map gives =>
      exact readFrom_of_valueIn registry declares member rfl rfl (valueIn_map gives member)
  | @array name values rest split cut =>
      obtain ⟨index, found, here⟩ := findIdx?_name member
      have position : (EventType.objectArray name assignment.properties).propertyIndex?
          entry.name = some index := by
        unfold EventType.propertyIndex?
        rw [declares, properties, List.findIdx?_map]
        exact found
      have made : Getter.ofDeclared? (.objectArray name assignment.properties) entry.descriptor
          none = some (.arraySlot index none) := congrArg (Option.map _) position
      exact readFrom_of_valueIn registry declares member made rfl (valueIn_array split cut here)
  | @bean name className accessor identity objectClass fields returns =>
      have accessed : (assignment.beanProperties accessor).find?
          (fun candidate => candidate.descriptor.name = entry.name) =
            some ⟨entry.descriptor, accessor entry.name⟩ := by
        rw [beanProperties, List.find?_map]
        exact congrArg (Option.map _) (find?_name member)
      have made : Getter.ofDeclared? (.bean name className (assignment.beanProperties accessor))
          entry.descriptor none = some (.beanField (accessor entry.name) none) :=
        congrArg (Option.map _) accessed
      exact readFrom_of_valueIn registry declares member made rfl
        (valueIn_bean (returns entry member))
  | @record name puts values gives knows filled =>
      obtain ⟨index, found, _⟩ := findIdx?_name member
      have made : Getter.ofDeclared? (.avro (assignment.schema name)) entry.descriptor none =
          some (.recordField index none) :=
        congrArg (Option.map _) ((fieldPosition?_eq assignment name entry.name).trans found)
      exact readFrom_of_valueIn registry declares member made rfl
        (valueIn_record gives knows filled member found)
  | tree textual written =>
      exact readFrom_of_valueIn registry declares member rfl rfl
        (valueIn_tree (textual entry member) written member)

/-- In every representation, the getter of a property reads the value that is assigned to the
property and says that it is there unless it is null; and a record of the properties can be filled
in any order. -/
theorem read_uniformly (assignment : Assignment) (registry : Registry) :
    (∀ type store, assignment.Presents type store →
      ∀ entry ∈ assignment.all, entry.ReadFrom registry type store) ∧
    ∀ name puts, assignment.Knows puts → ∃ values, Store.putAll? (assignment.schema name)
      (Store.emptyRecord (assignment.schema name)) puts = some values := by
  constructor
  · intro type store presents entry member
    exact readFrom_of_presents registry presents member
  · intro name puts knows
    have sized : (Store.emptyRecord (assignment.schema name)).length =
        assignment.all.length := by
      rw [Store.emptyRecord, List.length_map, schema, List.length_map]
    obtain ⟨values, run, _⟩ := putAll?_of_knows name knows sized
    exact ⟨values, run⟩

private def reading : Assignment where
  all := [⟨"count", .int, .int (-3)⟩, ⟨"open", .bool, .bool true⟩, ⟨"label", .string, .string "a b"⟩,
    ⟨"sum", .long, .null⟩]
  distinct := by decide
  named := by simp
  undotted := by simp

private def readingTree : XmlNode :=
  ⟨"reading", [("label", "a b"), ("count", "-3")], [⟨"open", [], [], some "true"⟩], none⟩

private def readingPuts : List (String × Value) :=
  [("label", .string "a b"), ("open", .bool true), ("count", .int (-3))]

private theorem gives_readingPuts : reading.Gives readingPuts where
  right := by simp [reading, readingPuts]
  complete := by simp [reading, readingPuts]

private theorem knows_readingPuts : reading.Knows readingPuts := by
  simp [Knows, reading, readingPuts]

private theorem writtenIn_readingTree : reading.WrittenIn readingTree where
  attributes := by simp [reading, readingTree, Value.written?]; decide
  children := by simp [reading, readingTree, Value.written?]
  complete := by simp [reading, readingTree]

/-- A negative number and a text with a blank in it are read from a tree and from a record alike;
nothing is read for the property without a value. -/
theorem read_uniformly_reading :
    reading.Presents (.xml "Reading" "reading" reading.properties) (.node readingTree) ∧
    (∀ entry ∈ reading.all, entry.ReadFrom .empty (.xml "Reading" "reading" reading.properties)
      (.node readingTree)) ∧
    reading.Knows readingPuts ∧
    ∃ values, Store.putAll? (reading.schema "Reading")
        (Store.emptyRecord (reading.schema "Reading")) readingPuts = some values ∧
      reading.Presents (.avro (reading.schema "Reading"))
        (.record (reading.schema "Reading") values) ∧
      ∀ entry ∈ reading.all, entry.ReadFrom .empty (.avro (reading.schema "Reading"))
        (.record (reading.schema "Reading") values) := by
  have tree : reading.Presents (.xml "Reading" "reading" reading.properties)
      (.node readingTree) := by
    refine .tree ?_ writtenIn_readingTree
    intro entry member
    simp only [reading, List.mem_cons, List.not_mem_nil, or_false] at member
    rcases member with rfl | rfl | rfl | rfl
    · exact .inr ⟨rfl, rfl, by simp [Value.text?]⟩
    · exact .inr ⟨rfl, rfl, by simp [Value.text?]⟩
    · exact .inr ⟨rfl, rfl, by simp [Value.text?]; decide⟩
    · exact .inl rfl
  obtain ⟨values, filled⟩ := (read_uniformly reading .empty).2 "Reading" _ knows_readingPuts
  have record : reading.Presents (.avro (reading.schema "Reading"))
      (.record (reading.schema "Reading") values) :=
    .record gives_readingPuts knows_readingPuts filled
  exact ⟨tree, (read_uniformly reading .empty).1 _ _ tree, knows_readingPuts, values, filled,
    record, (read_uniformly reading .empty).1 _ _ record⟩

end Assignment

end EventQuery
