import EventQuery.Getter.Build
import EventQuery.Proofs.Checked

set_option autoImplicit false

/-! Getters that can be built. The getter of a path reads the representation of the type that it
was built for, and its parts fit together. -/

namespace EventQuery

namespace Getter

def declared : Getter → Option EventType
  | mapEntry _ fragment => fragment
  | arraySlot _ fragment => fragment
  | beanField _ fragment => fragment
  | xmlProperty _ _ fragment => fragment
  | recordField _ fragment => fragment
  | nested _ inner _ => inner.declared

/-- Child elements become events of trees only, and the second part of a nested getter reads
what the first part leads to. -/
def WellFormed : Getter → Prop
  | xmlProperty _ _ fragment => ∀ type ∈ fragment, type.representation = .xml
  | nested outer inner type => outer.WellFormed ∧ inner.WellFormed ∧
      outer.declared = some type ∧ inner.representation = type.representation
  | _ => True

end Getter

/-- The getter reads events of the type, and the fragment type is the getter's. -/
structure CompiledProperty.BuiltFor (compiled : CompiledProperty) (type : EventType) : Prop where
  representation : compiled.getter.representation = type.representation
  declared : compiled.getter.declared = compiled.fragment
  wellFormed : compiled.getter.WellFormed

namespace Getter

variable {registry : Registry} {type : EventType} {compiled : CompiledProperty}

theorem ofSegments_one_eq_ok_iff {name : String} :
    ofSegments registry type [name] = .ok compiled ↔
      name ≠ "" ∧ ofProperty registry type name = .ok compiled := by
  unfold ofSegments
  by_cases empty : name = ""
  · rw [if_pos empty]
    apply iff_of_false
    · intro impossible
      cases impossible
    · intro both
      exact both.1 empty
  · rw [if_neg empty]
    exact (and_iff_right empty).symm

theorem ofSegments_cons_eq_ok_iff {head next : String} {rest : List String} :
    ofSegments registry type (head :: next :: rest) = .ok compiled ↔
      head ≠ "" ∧ ∃ outer fragment inner, ofProperty registry type head = .ok outer ∧
        outer.fragment = some fragment ∧
        ofSegments registry fragment (next :: rest) = .ok inner ∧
        compiled = ⟨.nested outer.getter inner.getter fragment, inner.type, inner.fragment⟩ := by
  rw [ofSegments]
  by_cases empty : head = ""
  · rw [if_pos empty]
    apply iff_of_false
    · intro impossible
      cases impossible
    · intro both
      exact both.1 empty
  · rw [if_neg empty, and_iff_right empty, Checked.bind_eq_ok_iff]
    apply exists_congr
    intro outer
    cases outer.fragment with
    | none => simp
    | some fragment =>
        constructor
        · intro run
          obtain ⟨outerBuilt, rest⟩ := run
          obtain ⟨inner, innerBuilt, made⟩ := Checked.bind_eq_ok_iff.mp rest
          exact ⟨fragment, inner, outerBuilt, rfl, innerBuilt, Checked.pure_eq_ok_iff.mp made⟩
        · intro parts
          obtain ⟨_, inner, outerBuilt, same, innerBuilt, made⟩ := parts
          cases same
          refine ⟨outerBuilt, Checked.bind_eq_ok_iff.mpr ⟨inner, innerBuilt, ?_⟩⟩
          exact Checked.pure_eq_ok_iff.mpr made

theorem trees_of_checkFragment {name root property : String}
    {properties : List PropertyDescriptor} {fragment : Option EventType}
    (ok : checkFragment (.xml name root properties) property fragment = .ok ()) :
    ∀ type ∈ fragment, type.representation = .xml := by
  intro type declared
  cases declared
  simp only [checkFragment] at ok
  split at ok
  · rename_i tree
    exact tree
  · cases ok

theorem builtFor_ofProperty {name : String}
    (built : ofProperty registry type name = .ok compiled) : compiled.BuiltFor type := by
  unfold ofProperty at built
  split at built
  · cases built
  · rename_i property _
    obtain ⟨fragment, _, rest⟩ := Checked.bind_eq_ok_iff.mp built
    obtain ⟨_, checked, rest⟩ := Checked.bind_eq_ok_iff.mp rest
    cases made : ofDeclared? type property fragment with
    | none =>
        rw [made] at rest
        cases rest
    | some getter =>
        rw [made] at rest
        cases rest
        cases type with
        | map name properties =>
            cases made
            exact ⟨rfl, rfl, trivial⟩
        | xml name root properties =>
            cases made
            exact ⟨rfl, rfl, trees_of_checkFragment checked⟩
        | objectArray name properties =>
            obtain ⟨index, _, rfl⟩ := Option.map_eq_some_iff.mp made
            exact ⟨rfl, rfl, trivial⟩
        | bean name className properties =>
            obtain ⟨found, _, rfl⟩ := Option.map_eq_some_iff.mp made
            exact ⟨rfl, rfl, trivial⟩
        | avro schema =>
            obtain ⟨position, _, rfl⟩ := Option.map_eq_some_iff.mp made
            exact ⟨rfl, rfl, trivial⟩

theorem builtFor_nested {outer inner : CompiledProperty} {fragment : EventType}
    (outerBuilt : outer.BuiltFor type) (declared : outer.fragment = some fragment)
    (innerBuilt : inner.BuiltFor fragment) :
    CompiledProperty.BuiltFor
      ⟨.nested outer.getter inner.getter fragment, inner.type, inner.fragment⟩ type where
  representation := outerBuilt.representation
  declared := innerBuilt.declared
  wellFormed := ⟨outerBuilt.wellFormed, innerBuilt.wellFormed,
    outerBuilt.declared.trans declared, innerBuilt.representation⟩

theorem builtFor_ofSegments {segments : List String}
    (built : ofSegments registry type segments = .ok compiled) : compiled.BuiltFor type := by
  induction segments generalizing type compiled with
  | nil => cases built
  | cons head rest ih =>
      cases rest with
      | nil => exact builtFor_ofProperty (ofSegments_one_eq_ok_iff.mp built).2
      | cons next rest =>
          obtain ⟨_, outer, fragment, inner, outerBuilt, declared, innerBuilt, rfl⟩ :=
            ofSegments_cons_eq_ok_iff.mp built
          exact builtFor_nested (builtFor_ofProperty outerBuilt) declared (ih innerBuilt)

end Getter

end EventQuery
