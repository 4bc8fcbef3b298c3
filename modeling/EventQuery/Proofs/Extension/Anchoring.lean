import EventQuery.Proofs.Extension.Requests
import EventQuery.Proofs.History.Cache

set_option autoImplicit false

/-! What a cache of getters answers about registered types, and when its answers agree with the
types. The cache finds getters by the name of the type only; where it holds the getter of another
type of the name, it may answer for a path that the registered type does not have. -/

namespace EventQuery

/-- The type has the property that the path starts with. -/
def EventType.Starts (type : EventType) (path : String) : Prop :=
  (type.property? ((Text.segments path).headD "")).isSome

namespace Getter

variable {registry : Registry} {type : EventType} {compiled : CompiledProperty}

theorem property?_of_ofProperty {name : String}
    (built : ofProperty registry type name = .ok compiled) : (type.property? name).isSome := by
  unfold ofProperty at built
  split at built
  · cases built
  · rename_i property found
    rw [found]
    rfl

theorem starts_of_ofPath {path : String} (built : ofPath registry type path = .ok compiled) :
    type.Starts path := by
  unfold EventType.Starts
  unfold ofPath at built
  cases segments : Text.segments path with
  | nil =>
      rw [segments] at built
      cases built
  | cons head rest =>
      rw [segments] at built
      cases rest with
      | nil => exact property?_of_ofProperty (ofSegments_one_eq_ok_iff.mp built).2
      | cons next rest =>
          obtain ⟨_, outer, _, _, outerBuilt, _⟩ := ofSegments_cons_eq_ok_iff.mp built
          exact property?_of_ofProperty outerBuilt

end Getter

namespace GetterCache

variable {cache later : GetterCache} {registry others : Registry} {type other : EventType}
  {path asked : String} {compiled : CompiledProperty}

def answer (cache : GetterCache) (registry : Registry) (type : EventType) (path : String) :
    Except ValidationError CompiledProperty :=
  (cache.compile registry type path).1

theorem answer_ok_iff :
    cache.answer registry type path = .ok compiled ↔
      cache.find? type.name path = some compiled ∨
        cache.find? type.name path = none ∧ Getter.ofPath registry type path = .ok compiled := by
  unfold answer compile
  cases cache.find? type.name path with
  | some known => simp
  | none => cases Getter.ofPath registry type path <;> simp

theorem answer_of_find?_eq
    (same : later.find? type.name path = cache.find? type.name path) :
    later.answer registry type path = cache.answer registry type path := by
  unfold answer compile
  rw [same]
  cases cache.find? type.name path with
  | some known => rfl
  | none => cases Getter.ofPath registry type path <;> rfl

theorem answer_compile (registered : registry.find? type.name = some type)
    (known : registry.find? other.name = some other) :
    (cache.compile registry other asked).2.answer registry type path =
      cache.answer registry type path := by
  by_cases same : other.name = type.name ∧ asked = path
  · obtain ⟨names, rfl⟩ := same
    rw [names, registered] at known
    cases known
    unfold answer compile
    cases cached : cache.find? type.name asked with
    | some found => simp only [cached]
    | none =>
        cases built : Getter.ofPath registry type asked with
        | error failure => simp only [cached]
        | ok made => simp only [find?, List.lookup_cons_self]
  · exact answer_of_find?_eq (cache.find?_compile_of_ne registry same)

theorem indistinct_answer (cache : GetterCache) (registry : Registry) :
    Indistinct (fun later => ∀ type, registry.find? type.name = some type → ∀ path,
      later.answer registry type path = cache.answer registry type path) registry where
  alike _ _ same otherSame type registered path :=
    (same type registered path).trans (otherSame type registered path).symm
  kept _ same _ known _ type registered path :=
    (answer_compile registered known).trans (same type registered path)

/-- Whatever the cache answers about registered types, the later cache answers with its types. -/
def Retains (cache later : GetterCache) (registry others : Registry) : Prop :=
  ∀ type path compiled, registry.find? type.name = some type →
    cache.answer registry type path = .ok compiled → later.answer others type path = .ok compiled

namespace Retains

theorem refl (cache : GetterCache) (registry : Registry) : cache.Retains cache registry registry :=
  fun _ _ _ _ answered => answered

theorem grows (retains : cache.Retains later registry others) {more : Registry}
    (grows : others.Grows more) : cache.Retains later registry more := by
  intro type path compiled registered answered
  have kept := retains type path compiled registered answered
  rcases answer_ok_iff.mp kept with cached | ⟨missing, built⟩
  · exact answer_ok_iff.mpr (.inl cached)
  · exact answer_ok_iff.mpr (.inr ⟨missing, Getter.ofPath_grows grows built⟩)

theorem of_answers (retains : cache.Retains later registry others)
    (grows : registry.Grows others) {next : GetterCache}
    (same : ∀ type, others.find? type.name = some type → ∀ path,
      next.answer others type path = later.answer others type path) :
    cache.Retains next registry others := by
  intro type path compiled registered answered
  rw [same type (grows _ _ registered)]
  exact retains type path compiled registered answered

theorem compile (retains : cache.Retains later registry others) (grows : registry.Grows others)
    (known : registry.find? other.name = some other) :
    (cache.compile registry other asked).2.Retains (later.compile others other asked).2 registry
      others := by
  intro type path compiled registered answered
  rw [answer_compile registered known] at answered
  rw [answer_compile (grows _ _ registered) (grows _ _ known)]
  exact retains type path compiled registered answered

end Retains

/-- A path that the cache answers for starts with a property of the registered type, or it is the
name of a variable. -/
def Anchored (cache : GetterCache) (services : Services) : Prop :=
  ∀ type path compiled, services.registry.find? type.name = some type →
    cache.answer services.registry type path = .ok compiled →
      type.Starts path ∨ (services.variableNamed? path).isSome

theorem Anchored.compile {services : Services} (anchored : cache.Anchored services)
    (known : services.registry.find? other.name = some other) :
    (cache.compile services.registry other asked).2.Anchored services := by
  intro type path compiled registered answered
  rw [answer_compile registered known] at answered
  exact anchored type path compiled registered answered

theorem Faithful.anchored {services : Services} (faithful : cache.Faithful services.registry) :
    cache.Anchored services := by
  intro type path compiled registered answered
  have built := (faithful.answer registered path).symm.trans answered
  exact .inl (Getter.starts_of_ofPath built)

end GetterCache

end EventQuery
