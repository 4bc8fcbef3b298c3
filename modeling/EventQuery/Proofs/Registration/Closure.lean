import EventQuery.Proofs.Registration.Batches

set_option autoImplicit false

/-! Registries that are reached from the empty one. They are closed: whatever a registered type
refers to is registered as well. No call changes a type that is registered, and one that fails
changes nothing. -/

namespace EventQuery.Registry

inductive Request where
  | one (type : EventType)
  | batch (types : List EventType)

namespace Request

def types : Request → List EventType
  | one type => [type]
  | batch types => types

def operation : Request → Registration Unit
  | one type => do
      let _ ← enterOne type
  | batch types => enter types

def run (request : Request) (registry : Registry) : Except ConfigurationError Unit × Registry :=
  ExceptT.run request.operation registry

theorem run_cases (request : Request) (registry : Registry) :
    (∃ failure, request.run registry = (.error failure, registry)) ∨
      ∃ added, registry.Accepts request.types added ∧
        request.run registry = (.ok (), registry.grown request.types added) := by
  cases request with
  | batch types => exact run_enter registry types
  | one type =>
      unfold run operation
      rw [run_bind]
      rcases run_enterOne registry type with refused | accepted
      · obtain ⟨failure, entered⟩ := refused
        rw [entered]
        exact .inl ⟨failure, rfl⟩
      · obtain ⟨added, accepts, entered⟩ := accepted
        rw [entered]
        exact .inr ⟨added, accepts, rfl⟩

end Request

inductive Reachable : Registry → Prop
  | empty : Reachable .empty
  | after {registry : Registry} (request : Request) : Reachable registry →
      Reachable (request.run registry).2

structure Closed (registry : Registry) : Prop where
  distinct : (registry.types.map EventType.name).Nodup
  stored : ∀ type ∈ registry.types, registry.find? type.name = some type
  fragments : ∀ type ∈ registry.types, ∀ property ∈ type.properties,
    ∀ fragment ∈ property.fragment, registry.contains fragment = true
  nested : ∀ schema inner, .avro schema ∈ registry.types → schema.Contains inner →
    registry.find? inner.name = some (.avro inner)

/-- The later registry has the types of the batch as well, and the nested schemas that had no
type yet. -/
structure Adds (registry : Registry) (batch : List EventType) (later : Registry) : Prop where
  kept : registry.Grows later
  free : ∀ type ∈ batch, registry.find? type.name = none
  exactly : ∀ type, type ∈ later.types ↔ type ∈ registry.types ∨ type ∈ batch ∨
    ∃ schema, type = .avro schema ∧ Brings batch schema ∧
      registry.find? schema.name = none ∧ ∀ other ∈ batch, other.name ≠ schema.name

variable {registry : Registry} {batch : List EventType} {added : List RecordSchema}

namespace Accepts

theorem mem_grown_iff (type : EventType) :
    type ∈ (registry.grown batch added).types ↔
      type ∈ registry.types ∨ type ∈ batch ∨ ∃ schema ∈ added, .avro schema = type := by
  rw [grown, List.mem_append, List.mem_append, List.mem_map]

theorem find?_brought (accepts : registry.Accepts batch added) {schema : RecordSchema}
    (brought : Brings batch schema) :
    (registry.grown batch added).find? schema.name = some (.avro schema) := by
  obtain ⟨owner, listed⟩ := brings_iff.mp brought
  rw [grown, find?_append]
  exact accepts.nests.known _ listed

theorem brought_of_mem (accepts : registry.Accepts batch added) {schema : RecordSchema}
    (member : schema ∈ added) : Brings batch schema :=
  brings_iff.mpr (accepts.nests.free schema member).1

theorem mem_added_iff (accepts : registry.Accepts batch added) (schema : RecordSchema) :
    schema ∈ added ↔ Brings batch schema ∧ registry.find? schema.name = none ∧
      ∀ other ∈ batch, other.name ≠ schema.name := by
  constructor
  · intro member
    obtain ⟨_, free, notIncoming⟩ := accepts.nests.free schema member
    exact ⟨accepts.brought_of_mem member, free, find?_eq_none_iff.mp notIncoming⟩
  · intro isNew
    obtain ⟨brought, free, different⟩ := isNew
    have found := accepts.find?_brought brought
    rw [grown, find?_append, free, Option.none_or, find?_append,
      find?_eq_none_iff.mpr different, Option.none_or] at found
    obtain ⟨other, member, same⟩ := List.mem_map.mp (find?_eq_some found).1
    cases same
    exact member

theorem adds (accepts : registry.Accepts batch added) :
    registry.Adds batch (registry.grown batch added) where
  kept := registry.grows_grown batch added
  free := accepts.free
  exactly := by
    intro type
    simp only [mem_grown_iff, accepts.mem_added_iff, @eq_comm _ type]
    constructor
    · intro member
      rcases member with earlier | inBatch | isAdded
      · exact .inl earlier
      · exact .inr (.inl inBatch)
      · obtain ⟨schema, isNew, same⟩ := isAdded
        exact .inr (.inr ⟨schema, same, isNew⟩)
    · intro member
      rcases member with earlier | inBatch | isAdded
      · exact .inl earlier
      · exact .inr (.inl inBatch)
      · obtain ⟨schema, same, isNew⟩ := isAdded
        exact .inr (.inr ⟨schema, isNew, same⟩)

theorem distinct_grown (accepts : registry.Accepts batch added) (closed : registry.Closed) :
    ((registry.grown batch added).types.map EventType.name).Nodup := by
  rw [grown, List.map_append, List.nodup_append]
  refine ⟨closed.distinct, accepts.incoming_distinct, ?_⟩
  intro name earlier other later equal
  subst equal
  obtain ⟨known, inRegistry, rfl⟩ := List.mem_map.mp earlier
  obtain ⟨type, incoming, same⟩ := List.mem_map.mp later
  have free := accepts.incoming_free type incoming
  exact find?_eq_none_iff.mp free known inRegistry same.symm

theorem fragment_grown (accepts : registry.Accepts batch added) (closed : registry.Closed)
    {type : EventType} (member : type ∈ (registry.grown batch added).types)
    {property : PropertyDescriptor} (declared : property ∈ type.properties) {fragment : String}
    (named : fragment ∈ property.fragment) :
    (registry.grown batch added).contains fragment = true := by
  unfold contains
  rw [grown, find?_append, Option.isSome_or, Bool.or_eq_true]
  rcases List.mem_append.mp member with earlier | incoming
  · exact .inl (closed.fragments type earlier property declared fragment named)
  · exact accepts.fragments type incoming property declared fragment named

theorem nested_grown (accepts : registry.Accepts batch added) (closed : registry.Closed)
    {schema inner : RecordSchema} (member : .avro schema ∈ (registry.grown batch added).types)
    (contains : schema.Contains inner) :
    (registry.grown batch added).find? inner.name = some (.avro inner) := by
  rcases (mem_grown_iff _).mp member with earlier | inBatch | isAdded
  · exact registry.grows_grown batch added _ _ (closed.nested schema inner earlier contains)
  · exact accepts.find?_brought ⟨schema, inBatch, contains⟩
  · -- What is nested in an added schema is nested in the type of the batch that it comes from.
    obtain ⟨_, inAdded, same⟩ := isAdded
    cases same
    obtain ⟨outer, outerInBatch, outerContains⟩ := accepts.brought_of_mem inAdded
    exact accepts.find?_brought ⟨outer, outerInBatch, outerContains.trans contains⟩

theorem closed_grown (accepts : registry.Accepts batch added) (closed : registry.Closed) :
    (registry.grown batch added).Closed where
  distinct := accepts.distinct_grown closed
  stored := fun _ member => find?_of_mem (accepts.distinct_grown closed) member
  fragments := fun _ member _ declared _ named =>
    accepts.fragment_grown closed member declared named
  nested := fun _ _ member contains => accepts.nested_grown closed member contains

end Accepts

theorem closed_empty : Registry.Closed .empty where
  distinct := List.nodup_nil
  stored := List.forall_mem_nil _
  fragments := List.forall_mem_nil _
  nested := fun _ _ member => nomatch member

theorem Closed.run (closed : registry.Closed) (request : Request) :
    (request.run registry).2.Closed := by
  rcases request.run_cases registry with refused | accepted
  · obtain ⟨failure, answered⟩ := refused
    rw [answered]
    exact closed
  · obtain ⟨added, accepts, answered⟩ := accepted
    rw [answered]
    exact accepts.closed_grown closed

theorem Reachable.closed (reachable : Reachable registry) : registry.Closed := by
  induction reachable with
  | empty => exact closed_empty
  | after request _ ih => exact ih.run request

/-- A reachable registry is closed, and every request either fails and leaves it as it is, or
adds to it exactly what it asks for. -/
theorem Reachable.closed_and_kept (reachable : Reachable registry) :
    registry.Closed ∧ ∀ request : Request,
      (∃ failure, request.run registry = (.error failure, registry)) ∨
        ∃ later, request.run registry = (.ok (), later) ∧ registry.Adds request.types later := by
  refine ⟨reachable.closed, fun request => ?_⟩
  rcases request.run_cases registry with refused | accepted
  · exact .inl refused
  · obtain ⟨added, accepts, answered⟩ := accepted
    exact .inr ⟨registry.grown request.types added, answered, accepts.adds⟩

private def address : RecordSchema := ⟨"Address", [⟨"city", .scalar .string⟩]⟩

private def customer : RecordSchema := ⟨"Customer", [⟨"address", .record address⟩]⟩

private def order : RecordSchema := ⟨"Order", [⟨"customer", .record customer⟩]⟩

private def shipment : EventType := .map "Shipment" [.ofFragment "destination" "Address"]

/-- The registry after a batch whose map refers to a schema that is nested in its record. -/
private def shipments : Registry := ((Request.batch [shipment, .avro order]).run .empty).2

/-- The nested schema is a type of its own, and its name is taken from then on. -/
theorem closed_and_kept_shipments : Reachable shipments ∧
    shipments.find? "Address" = some (.avro address) ∧
    ∃ failure, (Request.one (.map "Address" [])).run shipments = (.error failure, shipments) := by
  have reachable : Reachable shipments := .after _ .empty
  obtain ⟨closed, answers⟩ := reachable.closed_and_kept
  have member : .avro order ∈ shipments.types := List.mem_cons_of_mem _ List.mem_cons_self
  have nested : order.Contains address :=
    .tail (.single ⟨_, List.mem_cons_self, rfl⟩) ⟨_, List.mem_cons_self, rfl⟩
  have found : shipments.find? "Address" = some (.avro address) :=
    closed.nested order address member nested
  refine ⟨reachable, found, ?_⟩
  rcases answers (.one (.map "Address" [])) with refused | accepted
  · exact refused
  · obtain ⟨later, _, adds⟩ := accepted
    cases found.symm.trans (adds.free _ List.mem_cons_self)

end EventQuery.Registry
