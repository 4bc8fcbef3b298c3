import EventQuery.Proofs.Access.Acceptance

set_option autoImplicit false

/-! Records read by field names. Getters read a record by the positions that the fields have in
the registered schemas. Where the data is of these schemas, a getter reads what is found by
looking up its names one after the other. -/

namespace EventQuery

def RecordSchema.field? (schema : RecordSchema) (name : String) : Option SchemaField :=
  schema.fields.find? (fun field => field.name = name)

/-- The names lead through nested records to a field of the type. -/
inductive RecordSchema.Leads : RecordSchema → List String → FieldType → Prop
  | last {schema : RecordSchema} {name : String} {field : SchemaField} :
      schema.field? name = some field → Leads schema [name] field.type
  | through {schema inner : RecordSchema} {name : String} {names : List String}
      {field : SchemaField} {type : FieldType} :
      schema.field? name = some field → field.type = .record inner →
      Leads inner names type → Leads schema (name :: names) type

/-- What a field of the type may hold. Where the type is a schema, this is null or a record of
that very schema with such values in all of its fields. -/
inductive FieldType.Admits : FieldType → Value → Prop
  | scalar (type : AttributeType) (value : Value) : Admits (.scalar type) value
  | null (schema : RecordSchema) : Admits (.record schema) .null
  | record {schema : RecordSchema} {values : List Value} :
      (∀ (position : Nat) (field : SchemaField) (value : Value),
        schema.fields[position]? = some field →
        values[position]? = some value → Admits field.type value) →
      Admits (.record schema) (.raw (.record schema values))

/-- Looks up the names, each in the record that was found under the one before it. -/
def Value.lookUp : Value → List String → Value
  | value, [] => value
  | raw (.record schema values), name :: names =>
      lookUp ((Store.field? schema values name).getD .null) names
  | _, _ :: _ => .null

theorem Value.lookUp_null (names : List String) : Value.null.lookUp names = .null := by
  cases names <;> rfl

theorem Value.lookUp_append (value : Value) (front back : List String) :
    value.lookUp (front ++ back) = (value.lookUp front).lookUp back := by
  fun_induction Value.lookUp value front with
  | case1 value => rfl
  | case2 schema values name names ih => exact ih
  | case3 value name names noRecord =>
      rw [List.cons_append, Value.lookUp_null]
      cases value with
      | raw store =>
          cases store with
          | record schema values => exact (noRecord schema values rfl).elim
          | _ => rfl
      | _ => rfl

variable {registry : Registry} {schema : RecordSchema} {name : String} {field : SchemaField}

theorem RecordSchema.position_of_field? (found : schema.field? name = some field) :
    ∃ position, schema.fieldPosition? name = some position ∧
      schema.fields[position]? = some field := by
  unfold field? at found
  rw [List.find?_eq_bind_findIdx?_getElem?] at found
  exact Option.bind_eq_some_iff.mp found

theorem EventType.property?_avro (schema : RecordSchema) (name : String) :
    (avro schema).property? name = (schema.field? name).map SchemaField.descriptor := by
  unfold property? properties RecordSchema.field?
  simp only [List.find?_map, Function.comp_def, SchemaField.name_descriptor]

theorem FieldType.Admits.held {values : List Value}
    (admits : (FieldType.record schema).Admits (.raw (.record schema values))) {position : Nat}
    (placed : schema.fields[position]? = some field) {value : Value}
    (stored : values[position]? = some value) : field.type.Admits value := by
  cases admits with
  | record fields => exact fields position field value placed stored

theorem FieldType.Admits.inside? {inner : RecordSchema} {value : Value}
    (admits : (FieldType.record inner).Admits value) :
    value = .null ∨ ∃ values, value = .raw (.record inner values) ∧
      value.inside? .avro = some (.record inner values) := by
  cases admits with
  | null => exact .inl rfl
  | record fields => exact .inr ⟨_, rfl, rfl⟩

namespace Getter

theorem offers_of_field (nonempty : name ≠ "")
    (found : schema.field? name = some field) :
    registry.Offers (.avro schema) name field.descriptor := by
  have declared : (EventType.avro schema).property? name = some field.descriptor := by
    rw [EventType.property?_avro, found, Option.map_some]
  obtain ⟨named, isFirst⟩ := EventType.property?_eq_some_iff.mp declared
  exact ⟨nonempty, named, isFirst, fun tree => nomatch tree⟩

theorem ofProperty_of_field (closed : registry.Closed)
    (registered : .avro schema ∈ registry.types) (nonempty : name ≠ "")
    (found : schema.field? name = some field) :
    ∃ position, schema.fieldPosition? name = some position ∧
      schema.fields[position]? = some field ∧
      ofProperty registry (.avro schema) name =
        .ok ⟨.recordField position (field.descriptor.fragment.bind registry.find?),
          field.descriptor.type, field.descriptor.fragment.bind registry.find?⟩ := by
  obtain ⟨position, placed, holds⟩ := RecordSchema.position_of_field? found
  have offers : registry.Offers _ name _ := offers_of_field nonempty found
  obtain ⟨getter, made, built⟩ := ofProperty_of_offers closed registered offers
  change (schema.fieldPosition? field.descriptor.name).map _ = _ at made
  rw [offers.named, placed] at made
  cases made
  exact ⟨position, placed, holds, built⟩

theorem fragment_of_record (closed : registry.Closed) (registered : .avro schema ∈ registry.types)
    (member : field ∈ schema.fields) {inner : RecordSchema}
    (isRecord : field.type = .record inner) :
    field.descriptor.fragment.bind registry.find? = some (.avro inner) := by
  have nested : schema.Contains inner := .single ⟨field, member, isRecord⟩
  have isFragment : field.descriptor.fragment = some inner.name := by
    rw [SchemaField.descriptor, isRecord]
    rfl
  rw [isFragment]
  exact closed.nested schema inner registered nested

/-- The induction on the names: what was found under the first of them is null or a record of
the schema that the rest was compiled for. -/
theorem ofSegments_of_leads (closed : registry.Closed) {names : List String} {type : FieldType}
    (leads : schema.Leads names type) (registered : .avro schema ∈ registry.types)
    (nonempty : ∀ name ∈ names, name ≠ "") :
    ∃ compiled, ofSegments registry (.avro schema) names = .ok compiled ∧
      (∀ inner, type = .record inner →
        compiled.fragment = some (.avro inner) ∧ .avro inner ∈ registry.types) ∧
      ∀ values, (FieldType.record schema).Admits (.raw (.record schema values)) →
        compiled.getter.valueIn (.record schema values) =
          (Value.raw (.record schema values)).lookUp names := by
  induction leads with
  | @last schema name field found =>
      obtain ⟨position, placed, holds, built⟩ :=
        ofProperty_of_field closed registered (nonempty name List.mem_cons_self) found
      refine ⟨_, ofSegments_one_eq_ok_iff.mpr ⟨nonempty name List.mem_cons_self, built⟩, ?_, ?_⟩
      · intro inner isRecord
        have leadsTo :=
          fragment_of_record closed registered (List.mem_of_getElem? holds) isRecord
        obtain ⟨fragmentName, _, known⟩ := Option.bind_eq_some_iff.mp leadsTo
        exact ⟨leadsTo, (Registry.find?_eq_some known).1⟩
      · intro values _
        change (values[position]?).getD .null = (Store.field? schema values name).getD .null
        rw [Store.field?, placed, Option.bind_some]
  | @through schema inner name names field type found isRecord rest ih =>
      obtain ⟨first, others⟩ := List.forall_mem_cons.mp nonempty
      obtain ⟨position, placed, holds, built⟩ := ofProperty_of_field closed registered first found
      have leadsTo := fragment_of_record closed registered (List.mem_of_getElem? holds) isRecord
      obtain ⟨fragmentName, _, known⟩ := Option.bind_eq_some_iff.mp leadsTo
      obtain ⟨onward, onwardBuilt, ends, reads⟩ := ih (Registry.find?_eq_some known).1 others
      cases names with
      | nil => cases rest
      | cons next names =>
          refine ⟨_, ofSegments_cons_eq_ok_iff.mpr
            ⟨first, _, .avro inner, onward, built, leadsTo, onwardBuilt, rfl⟩, ends, ?_⟩
          intro values admits
          have readsRecords : onward.getter.representation = .avro :=
            (builtFor_ofSegments onwardBuilt).representation
          have steps : (Value.raw (.record schema values)).lookUp (name :: next :: names) =
              ((values[position]?).getD .null).lookUp (next :: names) := by
            rw [Value.lookUp, Store.field?, placed, Option.bind_some]
          have readsFirst : (recordField position
                (field.descriptor.fragment.bind registry.find?)).valueIn (.record schema values) =
              (values[position]?).getD .null := rfl
          rw [steps, valueIn_nested, readsFirst, readsRecords]
          cases stored : values[position]? with
          | none => rfl
          | some value =>
              have held := admits.held holds stored
              rw [isRecord] at held
              rcases held.inside? with isNull | isInner
              · rw [isNull]
                rfl
              · obtain ⟨innerValues, rfl, inside⟩ := isInner
                rw [Option.getD_some, inside, Option.elim_some]
                exact reads innerValues held

end Getter

namespace Registry

/-- In a reachable registry, every path along the fields of a registered schema has a getter, and
where it ends at a record its fragment type is the registered type of that schema. From an event
whose record is of the schema and holds records of the nested schemas, the getter reads what the
names lead to one after the other. -/
theorem Reachable.reads_by_names (reachable : registry.Reachable)
    (registered : .avro schema ∈ registry.types) {names : List String} {type : FieldType}
    (leads : schema.Leads names type)
    (plain : ∀ name ∈ names, name ≠ "" ∧ '.' ∉ name.toList) :
    ∃ compiled, Getter.ofPath registry (.avro schema) (Text.dotted names) = .ok compiled ∧
      (∀ inner, type = .record inner →
        compiled.fragment = some (.avro inner) ∧ .avro inner ∈ registry.types) ∧
      ∀ (event : Event) (values : List Value), event.type = .avro schema →
        event.store = .record schema values →
        (FieldType.record schema).Admits (.raw (.record schema values)) →
        compiled.getter.read event.store =
          .ok ((Value.raw (.record schema values)).lookUp names) ∧
        ∀ front back, names = front ++ back →
          (Value.raw (.record schema values)).lookUp front = .null →
          compiled.getter.read event.store = .ok .null := by
  have split : Text.segments (Text.dotted names) = names := by
    apply Text.segments_dotted
    · intro empty
      subst empty
      cases leads
    · intro name member
      exact (plain name member).2
  obtain ⟨compiled, built, ends, reads⟩ := Getter.ofSegments_of_leads reachable.closed leads
    registered (fun name member => (plain name member).1)
  refine ⟨compiled, ?_, ends, ?_⟩
  · rw [Getter.ofPath, split]
    exact built
  · intro event values _ holds admits
    have fits : (Store.record schema values).representation = compiled.getter.representation :=
      (Getter.builtFor_ofSegments built).representation.symm
    have read : compiled.getter.read event.store =
        .ok ((Value.raw (.record schema values)).lookUp names) := by
      rw [holds, Getter.read_eq fits, reads values admits]
    refine ⟨read, ?_⟩
    intro front back cut isNull
    rw [read, cut, Value.lookUp_append, isNull, Value.lookUp_null]

private def place : RecordSchema := ⟨"Place", [⟨"city", .scalar .string⟩, ⟨"city", .scalar .int⟩]⟩

private def buyer : RecordSchema := ⟨"Buyer", [⟨"home", .record place⟩]⟩

private def seller : RecordSchema :=
  ⟨"Seller", [⟨"rating", .scalar .int⟩, ⟨"home", .record place⟩]⟩

private def trades : Registry :=
  ((Request.one (.avro seller)).run ((Request.one (.avro buyer)).run .empty).2).2

private def sale : List Value := [.int 3, .raw (.record place [.string "Oslo", .int 7])]

private theorem admits_sale : (FieldType.record seller).Admits (.raw (.record seller sale)) := by
  apply FieldType.Admits.record
  intro position field value placed stored
  rcases position with _ | _ | position
  · cases placed
    exact .scalar _ _
  · cases placed
    cases stored
    apply FieldType.Admits.record
    intro position field value placed _
    rcases position with _ | _ | position
    · cases placed
      exact .scalar _ _
    · cases placed
      exact .scalar _ _
    · cases placed
  · cases placed

/-- Of two fields of one name the first is read, in the schema and in the data. -/
theorem reads_by_names_sale : Reachable trades ∧ .avro seller ∈ trades.types ∧
    seller.Leads ["home", "city"] (.scalar .string) ∧
    ∃ compiled, Getter.ofPath trades (.avro seller) (Text.dotted ["home", "city"]) = .ok compiled ∧
      compiled.getter.read (.record seller sale) = .ok (.string "Oslo") := by
  have reachable : Reachable trades := .after _ (.after _ .empty)
  have member : .avro seller ∈ trades.types :=
    List.mem_cons_of_mem _ (List.mem_cons_of_mem _ List.mem_cons_self)
  have first : place.field? "city" = some ⟨"city", .scalar .string⟩ := rfl
  have leads : seller.Leads ["home", "city"] (.scalar .string) := .through rfl rfl (.last first)
  obtain ⟨compiled, built, _, reads⟩ := reachable.reads_by_names member leads (by decide)
  exact ⟨reachable, member, leads, compiled, built,
    (reads ⟨0, .avro seller, .record seller sale⟩ sale rfl rfl admits_sale).1⟩

end Registry

end EventQuery
