import EventQuery.Proofs.Registration.Closure
import Mathlib.Data.List.Perm.Basic

set_option autoImplicit false

/-! Which batches a registry accepts, said without their order. A batch is accepted exactly when
its names are free and different, whatever has the name of a schema that it brings is a type of
this schema, and its fragments have types. In another order it is therefore accepted as well, and
the registry then holds the same types under the same names. -/

namespace EventQuery.Registry

/-- What is asked of a batch, as a condition on the set of its types. -/
structure Admits (registry : Registry) (batch : List EventType) : Prop where
  free : ∀ type ∈ batch, registry.find? type.name = none
  distinct : (batch.map EventType.name).Nodup
  /-- A registered type with the name of a nested schema is of this schema, -/
  registered : ∀ schema, Brings batch schema → ∀ type,
    registry.find? schema.name = some type → type = .avro schema
  /-- and so is a type of the batch, -/
  listed : ∀ schema, Brings batch schema → ∀ type ∈ batch,
    type.name = schema.name → type = .avro schema
  /-- and two nested schemas of one name are one schema. -/
  agreeing : ∀ schema other, Brings batch schema → Brings batch other →
    schema.name = other.name → schema = other
  fragments : ∀ type ∈ batch, ∀ property ∈ type.properties, ∀ fragment ∈ property.fragment,
    registry.contains fragment = true ∨ (∃ other ∈ batch, other.name = fragment) ∨
      ∃ schema, Brings batch schema ∧ schema.name = fragment

variable {registry : Registry} {batch other : List EventType} {added otherAdded : List RecordSchema}

theorem Brings.of_perm (reordered : batch.Perm other) {schema : RecordSchema}
    (brought : Brings batch schema) : Brings other schema := by
  obtain ⟨outer, member, contains⟩ := brought
  exact ⟨outer, reordered.mem_iff.mp member, contains⟩

theorem brings_iff_of_perm (reordered : batch.Perm other) {schema : RecordSchema} :
    Brings batch schema ↔ Brings other schema :=
  ⟨.of_perm reordered, .of_perm reordered.symm⟩

theorem Admits.of_perm (admits : registry.Admits batch) (reordered : batch.Perm other) :
    registry.Admits other where
  free type member := admits.free type (reordered.mem_iff.mpr member)
  distinct := (reordered.map EventType.name).nodup_iff.mp admits.distinct
  registered schema brought := admits.registered schema (brought.of_perm reordered.symm)
  listed schema brought type member :=
    admits.listed schema (brought.of_perm reordered.symm) type (reordered.mem_iff.mpr member)
  agreeing schema inner brought further :=
    admits.agreeing schema inner (brought.of_perm reordered.symm)
      (further.of_perm reordered.symm)
  fragments type member property declared fragment named := by
    simp only [← reordered.mem_iff, ← brings_iff_of_perm reordered]
    exact admits.fragments type (reordered.mem_iff.mpr member) property declared fragment named

theorem fragment_of_avro {schema : RecordSchema} {property : PropertyDescriptor}
    (declared : property ∈ (EventType.avro schema).properties) {fragment : String}
    (named : fragment ∈ property.fragment) :
    ∃ inner, schema.Contains inner ∧ inner.name = fragment := by
  obtain ⟨field, member, rfl⟩ := List.mem_map.mp declared
  obtain ⟨name, type⟩ := field
  cases type with
  | scalar type => cases named
  | record inner =>
      cases named
      exact ⟨inner, .single ⟨_, member, rfl⟩, rfl⟩

theorem Accepts.admits (accepts : registry.Accepts batch added) : registry.Admits batch where
  free := accepts.free
  distinct := accepts.distinct
  registered := by
    intro schema brought type found
    have known := accepts.find?_brought brought
    rw [grown, find?_append, found] at known
    exact Option.some.inj known
  listed := by
    intro schema brought type member same
    have known := accepts.find?_brought brought
    have found : Registry.find? ⟨batch⟩ schema.name = some type := same ▸
      find?_of_mem accepts.distinct member
    rw [grown, find?_append, ← same, accepts.free type member, Option.none_or, same, find?_append,
      found] at known
    exact Option.some.inj known
  agreeing := by
    intro schema inner brought further same
    have known := accepts.find?_brought brought
    rw [same, accepts.find?_brought further] at known
    cases known
    rfl
  fragments := by
    intro type member property declared fragment named
    have present := accepts.fragments type (List.mem_append_left _ member) property declared
      fragment named
    refine present.imp_right (fun incoming => ?_)
    obtain ⟨found, registered⟩ := Option.isSome_iff_exists.mp incoming
    obtain ⟨inside, same⟩ := find?_eq_some registered
    rcases List.mem_append.mp inside with inBatch | isAdded
    · exact .inl ⟨found, inBatch, same⟩
    · obtain ⟨schema, inAdded, rfl⟩ := List.mem_map.mp isAdded
      exact .inr ⟨schema, accepts.brought_of_mem inAdded, same⟩

theorem checkFragments_of_present {incoming : List EventType}
    (present : ∀ type ∈ incoming, ∀ property ∈ type.properties, ∀ fragment ∈ property.fragment,
      registry.contains fragment = true ∨ Registry.contains ⟨incoming⟩ fragment = true) :
    registry.checkFragments incoming = .ok () := by
  unfold checkFragments
  dsimp only
  split
  · rename_i owner name fragment missing
    obtain ⟨type, member, listed⟩ := List.mem_flatMap.mp (List.mem_of_find?_eq_some missing)
    obtain ⟨⟨_, _⟩, inside, same⟩ := List.mem_map.mp listed
    cases same
    obtain ⟨property, declared, named⟩ := List.mem_filterMap.mp inside
    obtain ⟨_, named, same⟩ := Option.map_eq_some_iff.mp named
    cases same
    have absent := List.find?_some missing
    simp only [Bool.not_eq_true', Bool.or_eq_false_iff] at absent
    rcases present type member property declared fragment named with registered | incoming
    · cases registered.symm.trans absent.1
    · cases incoming.symm.trans absent.2
  · rfl

theorem exists_addNested {incoming : List EventType} {schemas : List (String × RecordSchema)}
    (known : ∀ entry ∈ schemas, ∀ type, (registry.find? entry.2.name).or
      (Registry.find? ⟨incoming⟩ entry.2.name) = some type → type = .avro entry.2)
    (agreeing : ∀ entry ∈ schemas, ∀ further ∈ schemas, entry.2.name = further.2.name →
      entry.2 = further.2) :
    ∃ accepted, registry.addNested incoming schemas = .ok accepted := by
  induction schemas generalizing incoming with
  | nil => exact ⟨incoming, rfl⟩
  | cons entry rest ih =>
      obtain ⟨owner, schema⟩ := entry
      have agreeingRest : ∀ entry ∈ rest, ∀ further ∈ rest, entry.2.name = further.2.name →
          entry.2 = further.2 := fun entry member further later =>
        agreeing entry (List.mem_cons_of_mem _ member) further (List.mem_cons_of_mem _ later)
      unfold addNested
      cases found : (registry.find? schema.name).or (Registry.find? ⟨incoming⟩ schema.name) with
      | none =>
          refine ih ?_ agreeingRest
          intro entry member type holder
          rw [find?_append, ← Option.or_assoc] at holder
          cases earlier : (registry.find? entry.2.name).or
              (Registry.find? ⟨incoming⟩ entry.2.name) with
          | some earlierType =>
              rw [earlier] at holder
              cases holder
              exact known entry (List.mem_cons_of_mem _ member) type earlier
          | none =>
              -- The name is that of the schema just added, so it is this schema again.
              rw [earlier] at holder
              obtain ⟨inside, same⟩ := find?_eq_some holder
              cases List.mem_singleton.mp inside
              rw [agreeing entry (List.mem_cons_of_mem _ member) (owner, schema)
                List.mem_cons_self same.symm]
      | some type =>
          cases known (owner, schema) List.mem_cons_self type found
          dsimp only
          rw [if_pos schema.same_self]
          exact ih (fun entry member => known entry (List.mem_cons_of_mem _ member)) agreeingRest

theorem Admits.exists_gather (admits : registry.Admits batch) :
    ∃ incoming, registry.gather batch = .ok incoming := by
  have named : registry.checkNames [] batch = .ok () :=
    checkNames_ok_iff.mpr ⟨fun type member => ⟨admits.free type member, List.not_mem_nil⟩,
      admits.distinct⟩
  have nested : ∃ incoming, registry.addNested batch (nestedSchemas batch) = .ok incoming := by
    apply exists_addNested
    · intro entry member type found
      have brought : Brings batch entry.2 := brings_iff.mpr ⟨entry.1, member⟩
      rcases Option.or_eq_some_iff.mp found with registered | ⟨_, incoming⟩
      · exact admits.registered entry.2 brought type registered
      · obtain ⟨inBatch, same⟩ := find?_eq_some incoming
        exact admits.listed entry.2 brought type inBatch same
    · intro entry member further later same
      exact admits.agreeing entry.2 further.2 (brings_iff.mpr ⟨_, member⟩)
        (brings_iff.mpr ⟨_, later⟩) same
  obtain ⟨incoming, nested⟩ := nested
  obtain ⟨added, rfl, nests⟩ := nests_of_addNested nested
  have held {schema : RecordSchema} (brought : Brings batch schema) :
      registry.contains schema.name = true ∨
        Registry.contains ⟨batch ++ added.map .avro⟩ schema.name = true := by
    obtain ⟨owner, member⟩ := brings_iff.mp brought
    have known := congrArg Option.isSome (nests.known _ member)
    rw [Option.isSome_or] at known
    exact Bool.or_eq_true_iff.mp known
  have referenced : registry.checkFragments (batch ++ added.map .avro) = .ok () := by
    apply checkFragments_of_present
    intro type member property declared fragment named
    rcases List.mem_append.mp member with inBatch | isAdded
    · rcases admits.fragments type inBatch property declared fragment named with
        registered | ⟨other, otherInBatch, rfl⟩ | ⟨schema, brought, rfl⟩
      · exact .inl registered
      · refine .inr ?_
        unfold contains
        rw [find?_append, find?_of_mem admits.distinct otherInBatch]
        rfl
      · exact held brought
    · obtain ⟨schema, inAdded, rfl⟩ := List.mem_map.mp isAdded
      obtain ⟨outer, outerInBatch, contains⟩ :=
        brings_iff.mpr (nests.free schema inAdded).1
      obtain ⟨inner, deeper, rfl⟩ := fragment_of_avro declared named
      exact held ⟨outer, outerInBatch, contains.trans deeper⟩
  refine ⟨batch ++ added.map .avro, ?_⟩
  unfold gather
  rw [named, nested]
  simp only [referenced, bind, Except.bind, pure, Except.pure]

/-- A batch is accepted exactly when it meets the condition. -/
theorem exists_registerAll_iff :
    (∃ later, registry.registerAll batch = .ok later) ↔ registry.Admits batch := by
  constructor
  · rintro ⟨later, accepted⟩
    obtain ⟨added, accepts, _⟩ := accepts_of_registerAll accepted
    exact accepts.admits
  · intro admits
    obtain ⟨incoming, gathered⟩ := admits.exists_gather
    refine ⟨incoming.foldl insert registry, ?_⟩
    unfold registerAll changed
    rw [run_enter_eq, gathered]

structure SameTypes (registry other : Registry) : Prop where
  types : registry.types.Perm other.types
  find? : ∀ name, registry.find? name = other.find? name

theorem SameTypes.of_perm {later : Registry} (distinct : (registry.types.map EventType.name).Nodup)
    (types : registry.types.Perm later.types) : registry.SameTypes later where
  types := types
  find? := by
    have laterDistinct := (types.map EventType.name).nodup_iff.mp distinct
    intro name
    apply Option.ext
    intro type
    constructor
    · intro found
      obtain ⟨member, rfl⟩ := find?_eq_some found
      exact find?_of_mem laterDistinct (types.mem_iff.mp member)
    · intro found
      obtain ⟨member, rfl⟩ := find?_eq_some found
      exact find?_of_mem distinct (types.mem_iff.mpr member)

namespace Accepts

theorem nodup_added (accepts : registry.Accepts batch added) : added.Nodup :=
  List.Nodup.of_map RecordSchema.name accepts.nests.distinct

theorem added_perm (accepts : registry.Accepts batch added)
    (otherAccepts : registry.Accepts other otherAdded) (reordered : batch.Perm other) :
    added.Perm otherAdded := by
  refine (List.perm_ext_iff_of_nodup accepts.nodup_added otherAccepts.nodup_added).mpr ?_
  intro schema
  rw [accepts.mem_added_iff, otherAccepts.mem_added_iff]
  simp only [← reordered.mem_iff, ← brings_iff_of_perm reordered]

theorem sameTypes_grown (accepts : registry.Accepts batch added)
    (otherAccepts : registry.Accepts other otherAdded) (reordered : batch.Perm other)
    (closed : registry.Closed) :
    (registry.grown batch added).SameTypes (registry.grown other otherAdded) := by
  have incoming : (batch ++ added.map EventType.avro).Perm (other ++ otherAdded.map .avro) :=
    reordered.append ((accepts.added_perm otherAccepts reordered).map _)
  exact .of_perm (accepts.distinct_grown closed) (incoming.append_left _)

end Accepts

end EventQuery.Registry
