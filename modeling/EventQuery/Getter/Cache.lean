import EventQuery.Getter.Build

set_option autoImplicit false

/-! Getters that were built before, under the name of the event type and the path. The first
getter of a name and path stays. -/

namespace EventQuery

structure GetterCache where
  entries : List ((String × String) × CompiledProperty)

namespace GetterCache

def empty : GetterCache := ⟨[]⟩

def size (cache : GetterCache) : Nat :=
  cache.entries.length

def find? (cache : GetterCache) (type path : String) : Option CompiledProperty :=
  cache.entries.lookup (type, path)

/-- The getter of a path together with the cache afterwards. A getter that is not cached yet
is built and kept; a failure is not kept. -/
def compile (cache : GetterCache) (registry : Registry) (type : EventType) (path : String) :
    Except ValidationError CompiledProperty × GetterCache :=
  match cache.find? type.name path with
  | some property => (.ok property, cache)
  | none =>
      match Getter.ofPath registry type path with
      | .ok property => (.ok property, ⟨((type.name, path), property) :: cache.entries⟩)
      | .error failure => (.error failure, cache)

end GetterCache

end EventQuery
