import EventQuery.Proofs.Checked
import EventQuery.Registry
import Mathlib.Data.List.Nodup
import Mathlib.Logic.Relation

set_option autoImplicit false

/-! Batches of event types that are accepted. All names of an accepted batch are free and
different, and so are those of the types that are added for nested schemas; so no type that is
stored already is ever replaced. -/

namespace EventQuery

namespace RecordSchema

def Holds (outer inner : RecordSchema) : Prop :=
  ∃ field ∈ outer.fields, field.type = .record inner

/-- A field of the schema, or one anywhere below it, is typed by the other one. -/
def Contains : RecordSchema → RecordSchema → Prop :=
  Relation.TransGen Holds

theorem mem_nestedInFields_iff {fields : List SchemaField} {inner : RecordSchema} :
    inner ∈ nestedInFields fields ↔ ∃ field ∈ fields, inner ∈ field.type.nested := by
  induction fields with
  | nil => simp [nestedInFields]
  | cons field fields ih =>
      obtain ⟨name, type⟩ := field
      simp only [nestedInFields, List.mem_append, ih, List.exists_mem_cons_iff, SchemaField.nested]

private theorem mem_nested_of_holds {outer middle inner : RecordSchema}
    (holds : outer.Holds middle) (inside : inner ∈ middle :: middle.nested) :
    inner ∈ outer.nested := by
  obtain ⟨name, fields⟩ := outer
  obtain ⟨field, member, typed⟩ := holds
  apply mem_nestedInFields_iff.mpr
  refine ⟨field, member, ?_⟩
  rw [typed]
  exact inside

mutual

private theorem contains_of_mem_nested : (outer : RecordSchema) → {inner : RecordSchema} →
    inner ∈ outer.nested → outer.Contains inner
  | ⟨_, fields⟩, _, inside => by
      obtain ⟨field, member, middle, typed, same | deeper⟩ :=
        field_of_mem_nestedInFields fields inside
      · subst same
        exact .single ⟨field, member, typed⟩
      · exact .head ⟨field, member, typed⟩ deeper
termination_by structural outer => outer

private theorem field_of_mem_nestedInFields : (fields : List SchemaField) →
    {inner : RecordSchema} → inner ∈ nestedInFields fields →
      ∃ field ∈ fields, ∃ middle, field.type = .record middle ∧
        (inner = middle ∨ middle.Contains inner)
  | [], _, inside => by cases inside
  | field :: fields, _, inside => by
      rcases List.mem_append.mp inside with here | later
      · exact ⟨field, List.mem_cons_self, record_of_mem_nested field here⟩
      · obtain ⟨other, member, found⟩ := field_of_mem_nestedInFields fields later
        exact ⟨other, List.mem_cons_of_mem _ member, found⟩
termination_by structural fields => fields

private theorem record_of_mem_nested : (field : SchemaField) → {inner : RecordSchema} →
    inner ∈ field.nested → ∃ middle, field.type = .record middle ∧
      (inner = middle ∨ middle.Contains inner)
  | ⟨_, type⟩, _, inside => record_of_mem_nestedType type inside
termination_by structural field => field

private theorem record_of_mem_nestedType : (type : FieldType) → {inner : RecordSchema} →
    inner ∈ type.nested → ∃ middle, type = .record middle ∧
      (inner = middle ∨ middle.Contains inner)
  | .scalar _, _, inside => by cases inside
  | .record schema, _, inside => by
      rcases List.mem_cons.mp inside with same | deeper
      · exact ⟨schema, rfl, .inl same⟩
      · exact ⟨schema, rfl, .inr (contains_of_mem_nested schema deeper)⟩
termination_by structural type => type

end

theorem mem_nested_iff {outer inner : RecordSchema} :
    inner ∈ outer.nested ↔ outer.Contains inner := by
  constructor
  · exact contains_of_mem_nested outer
  · intro contains
    induction contains using Relation.TransGen.head_induction_on with
    | single holds => exact mem_nested_of_holds holds List.mem_cons_self
    | head holds _ ih => exact mem_nested_of_holds holds (List.mem_cons_of_mem _ ih)

end RecordSchema

namespace Registry

/-- The schema is nested in a type of the batch. -/
def Brings (batch : List EventType) (schema : RecordSchema) : Prop :=
  ∃ outer, .avro outer ∈ batch ∧ outer.Contains schema

theorem brings_iff {batch : List EventType} {schema : RecordSchema} :
    Brings batch schema ↔ ∃ owner, (owner, schema) ∈ nestedSchemas batch := by
  unfold Brings nestedSchemas
  constructor
  · intro brought
    obtain ⟨outer, member, contains⟩ := brought
    refine ⟨outer.name, List.mem_flatMap.mpr ⟨_, member, ?_⟩⟩
    exact List.mem_map.mpr ⟨schema, RecordSchema.mem_nested_iff.mpr contains, rfl⟩
  · intro listed
    obtain ⟨owner, listed⟩ := listed
    obtain ⟨type, member, inside⟩ := List.mem_flatMap.mp listed
    cases type with
    | avro outer =>
        obtain ⟨inner, nested, same⟩ := List.mem_map.mp inside
        cases same
        exact ⟨outer, member, RecordSchema.mem_nested_iff.mp nested⟩
    | map name properties => cases inside
    | objectArray name properties => cases inside
    | bean name className properties => cases inside
    | xml name root properties => cases inside

variable {registry : Registry} {type : EventType}

theorem find?_eq_none_iff {name : String} :
    registry.find? name = none ↔ ∀ type ∈ registry.types, type.name ≠ name := by
  simp [find?]

theorem find?_cons_self (type : EventType) (rest : List EventType) :
    Registry.find? ⟨type :: rest⟩ type.name = some type :=
  List.find?_cons_of_pos (decide_eq_true rfl)

theorem find?_append (first second : List EventType) (name : String) :
    Registry.find? ⟨first ++ second⟩ name =
      (Registry.find? ⟨first⟩ name).or (Registry.find? ⟨second⟩ name) :=
  List.find?_append

theorem find?_eq_some {name : String} (registered : registry.find? name = some type) :
    type ∈ registry.types ∧ type.name = name := by
  have matching := List.find?_some registered
  exact ⟨List.mem_of_find?_eq_some registered, of_decide_eq_true matching⟩

theorem find?_of_mem (distinct : (registry.types.map EventType.name).Nodup)
    (member : type ∈ registry.types) : registry.find? type.name = some type := by
  obtain ⟨types⟩ := registry
  unfold find?
  dsimp only at distinct member ⊢
  induction types with
  | nil => cases member
  | cons first rest ih =>
      rw [List.map_cons, List.nodup_cons] at distinct
      by_cases same : type = first
      · subst same
        exact find?_cons_self type rest
      · have inRest : type ∈ rest := (List.mem_cons.mp member).resolve_left same
        have different : first.name ≠ type.name := by
          intro equal
          apply distinct.1
          rw [equal]
          exact List.mem_map_of_mem inRest
        rw [List.find?_cons_of_neg (by simpa using different)]
        exact ih distinct.2 inRest

theorem insert_of_free (free : registry.find? type.name = none) :
    registry.insert type = ⟨registry.types ++ [type]⟩ := by
  have kept : registry.types.filter (fun known => known.name ≠ type.name) = registry.types := by
    apply List.filter_eq_self.mpr
    intro known member
    exact decide_eq_true (find?_eq_none_iff.mp free known member)
  unfold insert
  rw [kept]

theorem insert_all_of_free {incoming : List EventType}
    (free : ∀ type ∈ incoming, registry.find? type.name = none)
    (distinct : (incoming.map EventType.name).Nodup) :
    incoming.foldl insert registry = ⟨registry.types ++ incoming⟩ := by
  induction incoming generalizing registry with
  | nil => rw [List.foldl_nil, List.append_nil]
  | cons type rest ih =>
      rw [List.map_cons, List.nodup_cons] at distinct
      have stillFree : ∀ other ∈ rest,
          Registry.find? ⟨registry.types ++ [type]⟩ other.name = none := by
        intro other member
        apply find?_eq_none_iff.mpr
        intro known inside
        rcases List.mem_append.mp inside with earlier | last
        · exact find?_eq_none_iff.mp (free other (List.mem_cons_of_mem _ member)) known earlier
        · rw [List.mem_singleton.mp last]
          intro equal
          apply distinct.1
          rw [equal]
          exact List.mem_map_of_mem member
      rw [List.foldl_cons, insert_of_free (free type List.mem_cons_self),
        ih stillFree distinct.2, List.append_assoc, List.singleton_append]

theorem checkNames_ok_iff {seen : List String} {batch : List EventType} :
    registry.checkNames seen batch = .ok () ↔
      (∀ type ∈ batch, registry.find? type.name = none ∧ type.name ∉ seen) ∧
        (batch.map EventType.name).Nodup := by
  induction batch generalizing seen with
  | nil => simp [checkNames]
  | cons type rest ih =>
      unfold checkNames
      rw [List.forall_mem_cons, List.map_cons, List.nodup_cons]
      by_cases taken : (registry.contains type.name || seen.contains type.name) = true
      · rw [if_pos taken]
        apply iff_of_false
        · intro impossible
          cases impossible
        · intro both
          obtain ⟨⟨⟨free, unseen⟩, _⟩, _⟩ := both
          simp [contains, free, unseen] at taken
      · rw [if_neg taken, ih]
        simp only [Bool.or_eq_true, not_or, contains, Option.isSome_eq_false_iff,
          Option.isNone_iff_eq_none, Bool.not_eq_true, List.contains_eq_mem,
          decide_eq_false_iff_not] at taken
        constructor
        · intro both
          obtain ⟨others, distinct⟩ := both
          refine ⟨⟨taken, fun other member => ?_⟩, fun repeated => ?_, distinct⟩
          · obtain ⟨free, unseen⟩ := others other member
            exact ⟨free, fun inSeen => unseen (List.mem_cons_of_mem _ inSeen)⟩
          · obtain ⟨other, member, same⟩ := List.mem_map.mp repeated
            apply (others other member).2
            rw [same]
            exact List.mem_cons_self
        · intro both
          obtain ⟨⟨_, others⟩, fresh, distinct⟩ := both
          refine ⟨fun other member => ⟨(others other member).1, fun inSeen => ?_⟩, distinct⟩
          rcases List.mem_cons.mp inSeen with same | earlier
          · apply fresh
            rw [← same]
            exact List.mem_map_of_mem member
          · exact (others other member).2 earlier

/-- What nested schemas add to the incoming types. -/
structure Nests (registry : Registry) (incoming : List EventType)
    (schemas : List (String × RecordSchema)) (added : List RecordSchema) : Prop where
  /-- Only a schema is added whose name was free. -/
  free : ∀ schema ∈ added, (∃ owner, (owner, schema) ∈ schemas) ∧
    registry.find? schema.name = none ∧ Registry.find? ⟨incoming⟩ schema.name = none
  distinct : (added.map RecordSchema.name).Nodup
  known : ∀ entry ∈ schemas, (registry.find? entry.2.name).or
    (Registry.find? ⟨incoming ++ added.map .avro⟩ entry.2.name) = some (.avro entry.2)

theorem nests_of_addNested {incoming accepted : List EventType}
    {schemas : List (String × RecordSchema)}
    (ok : registry.addNested incoming schemas = .ok accepted) :
    ∃ added : List RecordSchema,
      accepted = incoming ++ added.map .avro ∧ registry.Nests incoming schemas added := by
  induction schemas generalizing incoming with
  | nil =>
      cases ok
      exact ⟨[], (List.append_nil _).symm, List.forall_mem_nil _, List.nodup_nil,
        List.forall_mem_nil _⟩
  | cons entry rest ih =>
      obtain ⟨owner, schema⟩ := entry
      unfold addNested at ok
      split at ok
      · rename_i missing
        obtain ⟨notRegistered, notIncoming⟩ := Option.or_eq_none_iff.mp missing
        obtain ⟨added, rfl, nests⟩ := ih ok
        have onlyNew := find?_cons_self (.avro schema) []
        refine ⟨schema :: added, ?_, ?_, ?_, ?_⟩
        · rw [List.map_cons, List.append_assoc, List.singleton_append]
        · rw [List.forall_mem_cons]
          refine ⟨⟨⟨owner, List.mem_cons_self⟩, notRegistered, notIncoming⟩, ?_⟩
          intro other member
          obtain ⟨⟨source, listed⟩, free, freeIncoming⟩ := nests.free other member
          rw [find?_append, Option.or_eq_none_iff] at freeIncoming
          exact ⟨⟨source, List.mem_cons_of_mem _ listed⟩, free, freeIncoming.1⟩
        · rw [List.map_cons, List.nodup_cons]
          refine ⟨?_, nests.distinct⟩
          intro repeated
          obtain ⟨other, member, same⟩ := List.mem_map.mp repeated
          have freeIncoming := (nests.free other member).2.2
          rw [same, find?_append, Option.or_eq_none_iff] at freeIncoming
          cases onlyNew.symm.trans freeIncoming.2
        · rw [List.forall_mem_cons]
          constructor
          · rw [notRegistered, List.map_cons, find?_append, notIncoming]
            exact find?_cons_self (.avro schema) (added.map .avro)
          · intro other member
            have found := nests.known other member
            rwa [List.append_assoc, List.singleton_append] at found
      · rename_i known found
        split at ok
        · rename_i equal
          rw [RecordSchema.same_iff_eq] at equal
          subst equal
          obtain ⟨added, rfl, nests⟩ := ih ok
          refine ⟨added, rfl, ?_, nests.distinct, ?_⟩
          · intro other member
            obtain ⟨⟨source, listed⟩, free⟩ := nests.free other member
            exact ⟨⟨source, List.mem_cons_of_mem _ listed⟩, free⟩
          · rw [List.forall_mem_cons]
            refine ⟨?_, nests.known⟩
            rw [find?_append, ← Option.or_assoc, found]
            rfl
        · cases ok
      · cases ok

theorem checkFragments_ok {incoming : List EventType}
    (ok : registry.checkFragments incoming = .ok ()) :
    ∀ type ∈ incoming, ∀ property ∈ type.properties, ∀ fragment ∈ property.fragment,
      registry.contains fragment = true ∨ Registry.contains ⟨incoming⟩ fragment = true := by
  unfold checkFragments at ok
  dsimp only at ok
  split at ok
  · cases ok
  · rename_i none
    intro type member property declared fragment named
    have listed : (type.name, property.name, fragment) ∈ fragmentReferences incoming := by
      apply List.mem_flatMap.mpr
      refine ⟨type, member, List.mem_map.mpr ⟨(property.name, fragment), ?_, rfl⟩⟩
      apply List.mem_filterMap.mpr
      refine ⟨property, declared, ?_⟩
      rw [Option.mem_def.mp named]
      rfl
    have present := List.find?_eq_none.mp none _ listed
    simp only [Bool.not_eq_true, Bool.not_eq_false', Bool.or_eq_true] at present
    exact present

/-! ### Accepted batches -/

/-- What the registry makes of a batch that it accepts. -/
structure Accepts (registry : Registry) (batch : List EventType) (added : List RecordSchema) :
    Prop where
  free : ∀ type ∈ batch, registry.find? type.name = none
  distinct : (batch.map EventType.name).Nodup
  nests : registry.Nests batch (nestedSchemas batch) added
  fragments : ∀ type ∈ batch ++ added.map .avro, ∀ property ∈ type.properties,
    ∀ fragment ∈ property.fragment, registry.contains fragment = true ∨
      Registry.contains ⟨batch ++ added.map .avro⟩ fragment = true

theorem accepts_of_gather {batch incoming : List EventType}
    (gathered : registry.gather batch = .ok incoming) :
    ∃ added, incoming = batch ++ added.map .avro ∧ registry.Accepts batch added := by
  simp only [gather, Checked.bind_eq_ok_iff, Checked.pure_eq_ok_iff] at gathered
  obtain ⟨_, named, _, nested, _, referenced, rfl⟩ := gathered
  obtain ⟨free, distinct⟩ := checkNames_ok_iff.mp named
  obtain ⟨added, rfl, nests⟩ := nests_of_addNested nested
  refine ⟨added, rfl, ?_, distinct, nests, checkFragments_ok referenced⟩
  intro type member
  exact (free type member).1

namespace Accepts

variable {batch : List EventType} {added : List RecordSchema}

theorem incoming_free (accepts : registry.Accepts batch added) :
    ∀ type ∈ batch ++ added.map EventType.avro, registry.find? type.name = none := by
  intro type member
  rcases List.mem_append.mp member with inBatch | isAdded
  · exact accepts.free type inBatch
  · obtain ⟨schema, inAdded, rfl⟩ := List.mem_map.mp isAdded
    exact (accepts.nests.free schema inAdded).2.1

theorem incoming_distinct (accepts : registry.Accepts batch added) :
    ((batch ++ added.map EventType.avro).map EventType.name).Nodup := by
  have names : (added.map EventType.avro).map EventType.name = added.map RecordSchema.name := by
    rw [List.map_map]
    rfl
  rw [List.map_append, names, List.nodup_append]
  refine ⟨accepts.distinct, accepts.nests.distinct, ?_⟩
  intro name inBatch other isAdded equal
  subst equal
  obtain ⟨type, member, rfl⟩ := List.mem_map.mp inBatch
  obtain ⟨schema, inAdded, same⟩ := List.mem_map.mp isAdded
  have notIncoming := (accepts.nests.free schema inAdded).2.2
  exact find?_eq_none_iff.mp notIncoming type member same.symm

end Accepts

/-! ### Operations -/

def grown (registry : Registry) (batch : List EventType) (added : List RecordSchema) : Registry :=
  ⟨registry.types ++ (batch ++ added.map .avro)⟩

theorem run_bind {α β : Type} (operation : Registration α) (next : α → Registration β)
    (registry : Registry) : (operation >>= next).run registry =
      ExceptT.bindCont next (operation.run registry).1 (operation.run registry).2 :=
  rfl

theorem run_get_bind {α : Type} (next : Registry → Registration α) (registry : Registry) :
    (get >>= next).run registry = (next registry).run registry :=
  rfl

private theorem run_insertAll (incoming : List EventType) (registry : Registry) :
    ExceptT.run (incoming.forM (fun type => modify (fun held => held.insert type)) :
      Registration Unit) registry = (.ok (), incoming.foldl insert registry) := by
  induction incoming generalizing registry with
  | nil => rfl
  | cons type rest ih => exact ih (registry.insert type)

theorem run_enter_eq (registry : Registry) (batch : List EventType) :
    (enter batch).run registry = match registry.gather batch with
      | .ok incoming => (.ok (), incoming.foldl insert registry)
      | .error failure => (.error failure, registry) := by
  have checked : (enter batch).run registry = ExceptT.run (do
      let incoming ← ofExcept (registry.gather batch)
      incoming.forM (fun type => modify (fun held => held.insert type)) :
        Registration Unit) registry := rfl
  rw [checked]
  cases registry.gather batch with
  | error failure => rfl
  | ok incoming => exact run_insertAll incoming registry

theorem run_enter (registry : Registry) (batch : List EventType) :
    (∃ failure, (enter batch).run registry = (.error failure, registry)) ∨
      ∃ added, registry.Accepts batch added ∧
        (enter batch).run registry = (.ok (), registry.grown batch added) := by
  rw [run_enter_eq]
  cases gathered : registry.gather batch with
  | error failure => exact .inl ⟨failure, rfl⟩
  | ok incoming =>
      obtain ⟨added, rfl, accepts⟩ := accepts_of_gather gathered
      refine .inr ⟨added, accepts, ?_⟩
      dsimp only
      rw [insert_all_of_free accepts.incoming_free accepts.incoming_distinct]
      rfl

/-- An accepted type is found again, so entering one type fails only where nothing is stored. -/
theorem run_enterOne (registry : Registry) (type : EventType) :
    (∃ failure, (enterOne type).run registry = (.error failure, registry)) ∨
      ∃ added, registry.Accepts [type] added ∧
        (enterOne type).run registry = (.ok type, registry.grown [type] added) := by
  unfold enterOne
  rw [run_bind]
  rcases run_enter registry [type] with refused | accepted
  · obtain ⟨failure, entered⟩ := refused
    rw [entered]
    exact .inl ⟨failure, rfl⟩
  · obtain ⟨added, accepts, entered⟩ := accepted
    have found : (registry.grown [type] added).find? type.name = some type := by
      rw [grown, find?_append, accepts.free type List.mem_cons_self]
      exact find?_cons_self type (added.map .avro)
    rw [entered]
    refine .inr ⟨added, accepts, ?_⟩
    change ExceptT.run (get >>= _ : Registration EventType) (registry.grown [type] added) = _
    rw [run_get_bind, found]
    rfl

/-- Names that are registered keep their types. -/
def Grows (registry later : Registry) : Prop :=
  ∀ name type, registry.find? name = some type → later.find? name = some type

theorem Grows.refl (registry : Registry) : registry.Grows registry :=
  fun _ _ registered => registered

theorem grows_grown (registry : Registry) (batch : List EventType) (added : List RecordSchema) :
    registry.Grows (registry.grown batch added) := by
  intro name type registered
  rw [grown, find?_append, registered]
  rfl

theorem accepts_of_registerAll {later : Registry} {batch : List EventType}
    (accepted : registry.registerAll batch = .ok later) :
    ∃ added, registry.Accepts batch added ∧ later = registry.grown batch added := by
  unfold registerAll changed at accepted
  rcases run_enter registry batch with refused | entered
  · obtain ⟨failure, same⟩ := refused
    rw [same] at accepted
    cases accepted
  · obtain ⟨added, accepts, same⟩ := entered
    rw [same] at accepted
    cases accepted
    exact ⟨added, accepts, rfl⟩

theorem grows_of_registerAll {later : Registry} {batch : List EventType}
    (accepted : registry.registerAll batch = .ok later) : registry.Grows later := by
  obtain ⟨added, _, rfl⟩ := accepts_of_registerAll accepted
  exact registry.grows_grown batch added

theorem grows_of_register {later : Registry} {type : EventType}
    (accepted : registry.register type = .ok later) : registry.Grows later := by
  unfold register changed at accepted
  rcases run_enterOne registry type with refused | entered
  · obtain ⟨failure, same⟩ := refused
    rw [same] at accepted
    cases accepted
  · obtain ⟨added, _, same⟩ := entered
    rw [same] at accepted
    cases accepted
    exact registry.grows_grown [type] added

end Registry

end EventQuery
