import EventQuery.Getter.Cache
import EventQuery.Proofs.Access.Paths
import EventQuery.Proofs.Registration.Batches

set_option autoImplicit false

/-! The cache of getters is transparent. Its keys hold the name of a type only, so this rests on
the types that are asked about being registered ones, and on the registry never changing the
type of a name. -/

namespace EventQuery

namespace Getter

variable {registry later : Registry} {type : EventType}

theorem fragmentType_grows (grows : registry.Grows later) {property : PropertyDescriptor}
    {fragment : Option EventType} (found : fragmentType registry type property = .ok fragment) :
    fragmentType later type property = .ok fragment := by
  unfold fragmentType at found ⊢
  cases declared : property.fragment with
  | none =>
      simp only [declared] at found
      exact found
  | some name =>
      simp only [declared] at found ⊢
      split at found
      · rename_i known registered
        rw [grows name known registered]
        exact found
      · cases found

theorem ofProperty_grows (grows : registry.Grows later) {name : String}
    {compiled : CompiledProperty} (built : ofProperty registry type name = .ok compiled) :
    ofProperty later type name = .ok compiled := by
  unfold ofProperty at built ⊢
  split at built
  · cases built
  · obtain ⟨fragment, found, rest⟩ := Checked.bind_eq_ok_iff.mp built
    exact Checked.bind_eq_ok_iff.mpr ⟨fragment, fragmentType_grows grows found, rest⟩

theorem ofSegments_grows (grows : registry.Grows later) {segments : List String}
    {compiled : CompiledProperty} (built : ofSegments registry type segments = .ok compiled) :
    ofSegments later type segments = .ok compiled := by
  induction segments generalizing type compiled with
  | nil => cases built
  | cons head rest ih =>
      cases rest with
      | nil =>
          obtain ⟨named, property⟩ := ofSegments_one_eq_ok_iff.mp built
          exact ofSegments_one_eq_ok_iff.mpr ⟨named, ofProperty_grows grows property⟩
      | cons next rest =>
          obtain ⟨named, outer, fragment, inner, outerBuilt, declared, innerBuilt, made⟩ :=
            ofSegments_cons_eq_ok_iff.mp built
          exact ofSegments_cons_eq_ok_iff.mpr ⟨named, outer, fragment, inner,
            ofProperty_grows grows outerBuilt, declared, ih innerBuilt, made⟩

/-- A getter that can be built is built the same way when more types are registered. -/
theorem ofPath_grows (grows : registry.Grows later) {path : String} {compiled : CompiledProperty}
    (built : ofPath registry type path = .ok compiled) : ofPath later type path = .ok compiled :=
  ofSegments_grows grows built

end Getter

namespace GetterCache

variable {cache : GetterCache} {registry : Registry}

/-- Every getter in the cache is the one that would be built for the registered type of its
name. -/
def Faithful (cache : GetterCache) (registry : Registry) : Prop :=
  ∀ name path compiled, cache.find? name path = some compiled →
    ∃ type, registry.find? name = some type ∧ Getter.ofPath registry type path = .ok compiled

theorem find?_compile_of_ne (cache : GetterCache) (registry : Registry) {type : EventType}
    {asked name path : String} (other : ¬ (type.name = name ∧ asked = path)) :
    (cache.compile registry type asked).2.find? name path = cache.find? name path := by
  unfold compile
  cases cache.find? type.name asked with
  | some compiled => rfl
  | none =>
      cases Getter.ofPath registry type asked with
      | error failure => rfl
      | ok compiled =>
          have different : ((name, path) == (type.name, asked)) = false := by
            rw [beq_eq_false_iff_ne]
            intro same
            cases same
            exact other ⟨rfl, rfl⟩
          unfold find?
          rw [List.lookup_cons, different]

theorem faithful_empty (registry : Registry) : empty.Faithful registry := by
  intro name path compiled cached
  cases cached

theorem Faithful.grows {later : Registry} (faithful : cache.Faithful registry)
    (grows : registry.Grows later) : cache.Faithful later := by
  intro name path compiled cached
  obtain ⟨type, registered, built⟩ := faithful name path compiled cached
  exact ⟨type, grows name type registered, Getter.ofPath_grows grows built⟩

/-- Asked about a registered type, a faithful cache answers as if it were not there. -/
theorem Faithful.answer (faithful : cache.Faithful registry) {type : EventType}
    (registered : registry.find? type.name = some type) (path : String) :
    (cache.compile registry type path).1 = Getter.ofPath registry type path := by
  unfold compile
  cases cached : cache.find? type.name path with
  | some compiled =>
      obtain ⟨known, same, built⟩ := faithful type.name path compiled cached
      rw [registered] at same
      cases same
      exact built.symm
  | none => cases Getter.ofPath registry type path <;> rfl

theorem Faithful.compile (faithful : cache.Faithful registry) {type : EventType}
    (registered : registry.find? type.name = some type) (path : String) :
    (cache.compile registry type path).2.Faithful registry := by
  unfold GetterCache.compile
  cases cache.find? type.name path with
  | some compiled => exact faithful
  | none =>
      cases built : Getter.ofPath registry type path with
      | error failure => exact faithful
      | ok compiled =>
          intro name other found present
          unfold find? at present
          rw [List.lookup_cons] at present
          split at present
          · rename_i same
            cases present
            obtain ⟨rfl, rfl⟩ := Prod.mk.inj (eq_of_beq same)
            exact ⟨type, registered, built⟩
          · exact faithful name other found present

/-- Nobody who asks for getters of registered types can tell these caches apart. -/
structure Indistinct (caches : GetterCache → Prop) (registry : Registry) : Prop where
  alike : ∀ cache other, caches cache → caches other → ∀ type,
    registry.find? type.name = some type → ∀ path,
      (cache.compile registry type path).1 = (other.compile registry type path).1
  kept : ∀ cache, caches cache → ∀ type, registry.find? type.name = some type → ∀ path,
    caches (cache.compile registry type path).2

theorem indistinct_faithful (registry : Registry) :
    Indistinct (fun cache => cache.Faithful registry) registry where
  alike _ _ faithful otherFaithful _ registered path :=
    (faithful.answer registered path).trans (otherFaithful.answer registered path).symm
  kept _ faithful _ registered path := faithful.compile registered path

end GetterCache

end EventQuery
