import EventQuery.Proofs.Access.Capabilities
import EventQuery.Proofs.Registration.Closure

set_option autoImplicit false

/-! For which paths there is a getter. In a closed registry a path is accepted exactly when its
names lead from declaration to declaration, and what it is refused for is always a fault of the
path: nothing that a registered type refers to is missing. -/

namespace EventQuery

/-- The type declares the property, and no property of that name before it. -/
def EventType.Declares (type : EventType) (property : PropertyDescriptor) : Prop :=
  ∃ before after, type.properties = before ++ property :: after ∧
    ∀ earlier ∈ before, earlier.name ≠ property.name

namespace Registry

/-- The property is the declaration of the name, and where the type is one of trees its fragments
are trees. -/
structure Offers (registry : Registry) (type : EventType) (name : String)
    (property : PropertyDescriptor) : Prop where
  nonempty : name ≠ ""
  named : property.name = name
  declared : type.Declares property
  trees : type.representation = .xml → ∀ fragmentName ∈ property.fragment,
    ∀ fragment, registry.find? fragmentName = some fragment → fragment.representation = .xml

/-- The names lead from the type to the declaration of the last of them. Every other one is
declared as a fragment, and the next one is looked for in the fragment type. -/
inductive Navigates (registry : Registry) : EventType → List String → EventType →
    PropertyDescriptor → Prop
  | last {type name property} :
      registry.Offers type name property → Navigates registry type [name] type property
  | through {type name property fragmentName fragment names final found} :
      registry.Offers type name property → property.fragment = some fragmentName →
      registry.find? fragmentName = some fragment →
      Navigates registry fragment names final found →
      Navigates registry type (name :: names) final found

end Registry

inductive Getter.Includes : Getter → Getter → Prop
  | self (getter : Getter) : Includes getter getter
  | outer {outer inner part : Getter} {type : EventType} :
      Includes outer part → Includes (nested outer inner type) part
  | inner {outer inner part : Getter} {type : EventType} :
      Includes inner part → Includes (nested outer inner type) part

/-- Faults that a path may have, whatever is registered. -/
inductive PropertyFault.OfPath : PropertyFault → Prop
  | unknown : OfPath .unknown
  | emptyName : OfPath .emptyName
  | notNavigable (head : String) : OfPath (.notNavigable head)
  | fragmentNotTree (fragment : String) : OfPath (.fragmentNotTree fragment)

section

variable {registry : Registry} {type : EventType} {property : PropertyDescriptor} {name : String}

theorem EventType.property?_eq_some_iff :
    type.property? name = some property ↔ property.name = name ∧ type.Declares property := by
  unfold property? Declares
  rw [List.find?_eq_some_iff_append]
  simp only [decide_eq_true_eq, Bool.not_eq_true', decide_eq_false_iff_not]
  constructor
  · intro found
    obtain ⟨rfl, declared⟩ := found
    exact ⟨rfl, declared⟩
  · intro found
    obtain ⟨rfl, declared⟩ := found
    exact ⟨rfl, declared⟩

theorem EventType.mem_of_property? (found : type.property? name = some property) :
    property ∈ type.properties ∧ property.name = name := by
  unfold property? at found
  have matching := List.find?_some found
  exact ⟨List.mem_of_find?_eq_some found, of_decide_eq_true matching⟩

namespace Getter

theorem exists_ofDeclared? (declared : property ∈ type.properties) (fragment : Option EventType) :
    ∃ getter, ofDeclared? type property fragment = some getter := by
  apply Option.isSome_iff_exists.mp
  cases type with
  | map name properties => rfl
  | xml name root properties => rfl
  | objectArray name properties =>
      simp only [ofDeclared?, Option.isSome_map, EventType.propertyIndex?, List.findIdx?_isSome,
        List.any_eq_true, decide_eq_true_eq]
      exact ⟨property, declared, rfl⟩
  | bean name className properties =>
      obtain ⟨candidate, member, rfl⟩ := List.mem_map.mp declared
      simp only [ofDeclared?, Option.isSome_map, List.find?_isSome, decide_eq_true_eq]
      exact ⟨candidate, member, rfl⟩
  | avro schema =>
      obtain ⟨field, member, rfl⟩ := List.mem_map.mp declared
      simp only [ofDeclared?, Option.isSome_map, RecordSchema.fieldPosition?,
        List.findIdx?_isSome, List.any_eq_true, decide_eq_true_eq]
      exact ⟨field, member, field.name_descriptor.symm⟩

section

variable (closed : registry.Closed) (registered : type ∈ registry.types)

include closed registered

theorem fragmentType_of_closed (declared : property ∈ type.properties) :
    fragmentType registry type property = .ok (property.fragment.bind registry.find?) := by
  unfold fragmentType
  cases named : property.fragment with
  | none => rfl
  | some fragmentName =>
      have contained := closed.fragments type registered property declared fragmentName named
      obtain ⟨fragment, found⟩ := Option.isSome_iff_exists.mp contained
      simp only [found, Option.bind_some]

theorem representation_of_nested (records : type.representation = .avro)
    (declared : property ∈ type.properties) :
    ∀ fragment ∈ property.fragment.bind registry.find?, fragment.representation = .avro := by
  intro fragment found
  cases type with
  | avro schema =>
      obtain ⟨⟨name, fieldType⟩, member, rfl⟩ := List.mem_map.mp declared
      cases fieldType with
      | scalar type => cases found
      | record inner =>
          have nested := closed.nested schema inner registered (.single ⟨_, member, rfl⟩)
          cases nested.symm.trans found
          rfl
  | _ => cases records

theorem checkFragment_of_closed (found : type.property? name = some property) :
    checkFragment type name (property.fragment.bind registry.find?) = .ok () ∧
        (type.representation = .xml →
          ∀ fragment ∈ property.fragment.bind registry.find?, fragment.representation = .xml) ∨
      ∃ fragment ∈ property.fragment.bind registry.find?, type.representation = .xml ∧
        fragment.representation ≠ .xml ∧
        checkFragment type name (property.fragment.bind registry.find?) =
          .error (.invalidProperty type.name name (.fragmentNotTree fragment.name)) := by
  have declared := (EventType.mem_of_property? found).1
  cases fragmentIs : property.fragment.bind registry.find? with
  | none =>
      refine .inl ⟨?_, fun _ _ absent => nomatch absent⟩
      cases type <;> rfl
  | some fragment =>
      cases type with
      | xml name root properties =>
          by_cases tree : fragment.representation = .xml
          · refine .inl ⟨if_pos tree, fun _ other same => ?_⟩
            cases same
            exact tree
          · exact .inr ⟨fragment, rfl, rfl, tree, if_neg tree⟩
      | avro schema =>
          have record := representation_of_nested closed registered rfl declared fragment fragmentIs
          exact .inl ⟨if_pos record, fun impossible => nomatch impossible⟩
      | map _ _ => exact .inl ⟨rfl, fun impossible => nomatch impossible⟩
      | objectArray _ _ => exact .inl ⟨rfl, fun impossible => nomatch impossible⟩
      | bean _ _ _ => exact .inl ⟨rfl, fun impossible => nomatch impossible⟩

theorem ofProperty_of_offers (offers : registry.Offers type name property) :
    ∃ getter, ofDeclared? type property (property.fragment.bind registry.find?) = some getter ∧
      ofProperty registry type name =
        .ok ⟨getter, property.type, property.fragment.bind registry.find?⟩ := by
  have found := EventType.property?_eq_some_iff.mpr ⟨offers.named, offers.declared⟩
  have declared := (EventType.mem_of_property? found).1
  obtain ⟨getter, made⟩ := exists_ofDeclared? declared (property.fragment.bind registry.find?)
  refine ⟨getter, made, ?_⟩
  unfold ofProperty
  simp only [found, fragmentType_of_closed closed registered declared]
  rcases checkFragment_of_closed closed registered found with accepted | refused
  · obtain ⟨checked, _⟩ := accepted
    apply Checked.bind_eq_ok_iff.mpr ⟨_, rfl, Checked.bind_eq_ok_iff.mpr ⟨(), checked, ?_⟩⟩
    rw [made]
    rfl
  · obtain ⟨fragment, leads, trees, noTree, _⟩ := refused
    obtain ⟨fragmentName, given, known⟩ := Option.bind_eq_some_iff.mp leads
    exact absurd (offers.trees trees fragmentName given fragment known) noTree

/-- A name that is not offered is unknown, or it stands for a fragment that is no tree. -/
theorem offers_or_refused (nonempty : name ≠ "") :
    (∃ property, registry.Offers type name property) ∨
      ∃ fault, PropertyFault.OfPath fault ∧
        ofProperty registry type name = .error (.invalidProperty type.name name fault) := by
  unfold ofProperty
  cases found : type.property? name with
  | none => exact .inr ⟨.unknown, .unknown, rfl⟩
  | some property =>
      have declared := (EventType.mem_of_property? found).1
      obtain ⟨named, isFirst⟩ := EventType.property?_eq_some_iff.mp found
      simp only [fragmentType_of_closed closed registered declared]
      rcases checkFragment_of_closed closed registered found with accepted | refused
      · obtain ⟨_, trees⟩ := accepted
        refine .inl ⟨property, nonempty, named, isFirst, ?_⟩
        intro isTree fragmentName given fragment known
        exact trees isTree fragment (Option.bind_eq_some_iff.mpr ⟨fragmentName, given, known⟩)
      · obtain ⟨fragment, _, _, _, failed⟩ := refused
        refine .inr ⟨_, .fragmentNotTree fragment.name, ?_⟩
        change (checkFragment type name _ >>= _) = _
        rw [failed]
        rfl

end

/-! ### Paths of registered types -/

theorem ofSegments_of_navigates (closed : registry.Closed) {names : List String}
    {final : EventType} (navigates : registry.Navigates type names final property)
    (registered : type ∈ registry.types) :
    ∃ getter, ofSegments registry type names =
      .ok ⟨getter, property.type, property.fragment.bind registry.find?⟩ := by
  induction navigates with
  | last offers =>
      obtain ⟨getter, _, built⟩ := ofProperty_of_offers closed registered offers
      exact ⟨getter, ofSegments_one_eq_ok_iff.mpr ⟨offers.nonempty, built⟩⟩
  | @through type name property fragmentName fragment names final found offers isFragment known
      rest ih =>
      obtain ⟨outer, _, outerBuilt⟩ := ofProperty_of_offers closed registered offers
      obtain ⟨inner, innerBuilt⟩ := ih (Registry.find?_eq_some known).1
      have leads : property.fragment.bind registry.find? = some fragment := by
        rw [isFragment]
        exact known
      cases names with
      | nil => cases rest
      | cons next names =>
          exact ⟨_, ofSegments_cons_eq_ok_iff.mpr
            ⟨offers.nonempty, _, fragment, _, outerBuilt, leads, innerBuilt, rfl⟩⟩

section

variable {head next : String} {rest : List String} {outer : CompiledProperty}
  {failure : ValidationError}

theorem ofSegments_refused_at_head (nonempty : head ≠ "")
    (failed : ofProperty registry type head = .error failure) :
    ofSegments registry type (head :: rest) = .error failure := by
  cases rest with
  | nil => rw [ofSegments, if_neg nonempty, failed]
  | cons next rest =>
      rw [ofSegments, if_neg nonempty, failed]
      rfl

theorem ofSegments_not_navigable (nonempty : head ≠ "")
    (built : ofProperty registry type head = .ok outer) (scalar : outer.fragment = none) :
    ofSegments registry type (head :: next :: rest) = .error (.invalidProperty type.name
      (Text.dotted (head :: next :: rest)) (.notNavigable head)) := by
  rw [ofSegments, if_neg nonempty, built]
  dsimp only [bind, Except.bind]
  rw [scalar]
  rfl

theorem ofSegments_refused_later {fragment : EventType} (nonempty : head ≠ "")
    (built : ofProperty registry type head = .ok outer) (leads : outer.fragment = some fragment)
    (failed : ofSegments registry fragment (next :: rest) = .error failure) :
    ofSegments registry type (head :: next :: rest) = .error failure := by
  rw [ofSegments, if_neg nonempty, built]
  dsimp only [bind, Except.bind]
  rw [leads]
  dsimp only
  rw [failed]

end

/-- Names that lead nowhere are refused at the first one that does not lead on. -/
theorem navigates_or_refused (closed : registry.Closed) (names : List String)
    (registered : type ∈ registry.types) :
    (∃ final property, registry.Navigates type names final property) ∨
      ∃ owner subject fault, PropertyFault.OfPath fault ∧
        ofSegments registry type names = .error (.invalidProperty owner subject fault) := by
  induction names generalizing type with
  | nil => exact .inr ⟨_, _, _, .emptyName, rfl⟩
  | cons head rest ih =>
      by_cases empty : head = ""
      · subst empty
        cases rest <;> exact .inr ⟨_, _, _, .emptyName, rfl⟩
      rcases offers_or_refused closed registered empty with offered | refused
      · obtain ⟨property, offers⟩ := offered
        obtain ⟨outer, _, built⟩ := ofProperty_of_offers closed registered offers
        cases rest with
        | nil => exact .inl ⟨type, property, .last offers⟩
        | cons next rest =>
            cases leads : property.fragment.bind registry.find? with
            | none =>
                exact .inr ⟨_, _, _, .notNavigable head,
                  ofSegments_not_navigable empty built leads⟩
            | some fragment =>
                obtain ⟨fragmentName, isFragment, known⟩ := Option.bind_eq_some_iff.mp leads
                rcases ih (Registry.find?_eq_some known).1 with onward | refused
                · obtain ⟨final, found, navigates⟩ := onward
                  exact .inl ⟨final, found, .through offers isFragment known navigates⟩
                · obtain ⟨owner, subject, fault, ofPath, failed⟩ := refused
                  exact .inr ⟨owner, subject, fault, ofPath,
                    ofSegments_refused_later empty built leads failed⟩
      · obtain ⟨fault, ofPath, failed⟩ := refused
        exact .inr ⟨type.name, head, fault, ofPath, ofSegments_refused_at_head empty failed⟩

theorem WellFormed.nested_of_includes {getter outer inner : Getter} {fragment : EventType}
    (wellFormed : getter.WellFormed) (includes : getter.Includes (nested outer inner fragment)) :
    inner.representation = fragment.representation := by
  generalize same : nested outer inner fragment = part at includes
  induction includes with
  | self getter =>
      subst same
      exact wellFormed.2.2.2
  | outer _ ih => exact ih wellFormed.1 same
  | inner _ ih => exact ih wellFormed.2.1 same

end Getter

namespace Registry

theorem Navigates.declared {names : List String} {final : EventType}
    (navigates : registry.Navigates type names final property)
    (registered : type ∈ registry.types) :
    final ∈ registry.types ∧ property ∈ final.properties := by
  induction navigates with
  | last offers =>
      obtain ⟨before, after, split, _⟩ := offers.declared
      rw [split]
      exact ⟨registered, List.mem_append_right before List.mem_cons_self⟩
  | through _ _ known _ ih => exact ih (find?_eq_some known).1

theorem Closed.map_name_fragment (closed : registry.Closed) (registered : type ∈ registry.types)
    (declared : property ∈ type.properties) :
    (property.fragment.bind registry.find?).map EventType.name = property.fragment := by
  cases named : property.fragment with
  | none => rfl
  | some fragmentName =>
      have contained := closed.fragments type registered property declared fragmentName named
      obtain ⟨fragment, found⟩ := Option.isSome_iff_exists.mp contained
      simp only [Option.bind_some, found, Option.map_some, (find?_eq_some found).2]

/-- In a reachable registry, a path of a registered type has a getter exactly if its segments lead
from declaration to declaration. The getter has the types of the last declaration and reads every
event of the type, and what a nested getter continues with is what its second part reads. A path
is never refused for what the registry or the type lacks. -/
theorem Reachable.ofPath_exact (reachable : registry.Reachable)
    (registered : type ∈ registry.types) (path : String) :
    ((∃ compiled, Getter.ofPath registry type path = .ok compiled) ↔
      ∃ final property, registry.Navigates type (Text.segments path) final property) ∧
    (∀ compiled, Getter.ofPath registry type path = .ok compiled →
      (∀ final property, registry.Navigates type (Text.segments path) final property →
        compiled.type = property.type ∧
        compiled.fragment = property.fragment.bind registry.find? ∧
        compiled.fragment.map EventType.name = property.fragment) ∧
      compiled.getter.representation = type.representation ∧
      (∀ identity store event, Event.ofStore identity type store = .ok event →
        ∃ value, compiled.getter.read event.store = .ok value) ∧
      ∀ outer inner fragment, compiled.getter.Includes (.nested outer inner fragment) →
        inner.representation = fragment.representation) ∧
    ∀ failure, Getter.ofPath registry type path = .error failure →
      ∃ owner subject fault, failure = .invalidProperty owner subject fault ∧
        PropertyFault.OfPath fault := by
  have closed := reachable.closed
  have decided := Getter.navigates_or_refused closed (Text.segments path) registered
  refine ⟨⟨?_, ?_⟩, ?_, ?_⟩
  · intro accepted
    obtain ⟨compiled, built⟩ := accepted
    apply decided.resolve_right
    intro refused
    obtain ⟨owner, subject, fault, _, failed⟩ := refused
    cases built.symm.trans failed
  · intro leads
    obtain ⟨final, property, navigates⟩ := leads
    obtain ⟨getter, built⟩ := Getter.ofSegments_of_navigates closed navigates registered
    exact ⟨_, built⟩
  · intro compiled built
    have builtFor := Getter.builtFor_ofSegments built
    refine ⟨?_, builtFor.representation, ?_, ?_⟩
    · intro final property navigates
      obtain ⟨getter, again⟩ := Getter.ofSegments_of_navigates closed navigates registered
      cases again.symm.trans built
      obtain ⟨finalRegistered, declared⟩ := navigates.declared registered
      exact ⟨rfl, rfl, closed.map_name_fragment finalRegistered declared⟩
    · intro identity store event made
      unfold Event.ofStore at made
      split at made
      · rename_i fits
        cases made
        exact ⟨_, Getter.read_eq (fits.symm.trans builtFor.representation.symm)⟩
      · cases made
    · intro outer inner fragment includes
      exact builtFor.wellFormed.nested_of_includes includes
  · intro failure failed
    rcases decided with leads | refused
    · obtain ⟨final, property, navigates⟩ := leads
      obtain ⟨getter, built⟩ := Getter.ofSegments_of_navigates closed navigates registered
      cases built.symm.trans failed
    · obtain ⟨owner, subject, fault, ofPath, again⟩ := refused
      cases again.symm.trans failed
      exact ⟨owner, subject, fault, rfl, ofPath⟩

private def node : EventType := .map "Node" [.scalar "value" .string, .ofFragment "next" "Node"]

/-- A registry whose one type refers to itself. -/
private def nodes : Registry := ((Request.one node).run .empty).2

private theorem offers_next : nodes.Offers node "next" (.ofFragment "next" "Node") where
  nonempty := by decide
  named := rfl
  declared := ⟨[.scalar "value" .string], [], rfl, by decide⟩
  trees := fun tree => nomatch tree

private theorem offers_value : nodes.Offers node "value" (.scalar "value" .string) where
  nonempty := by decide
  named := rfl
  declared := ⟨[], [.ofFragment "next" "Node"], rfl, by decide⟩
  trees := fun tree => nomatch tree

/-- A path may follow the reference again and again, but no name in it may be empty. -/
theorem ofPath_exact_nodes : Reachable nodes ∧ node ∈ nodes.types ∧
    (∃ compiled, Getter.ofPath nodes node "next.next.value" = .ok compiled) ∧
    ∃ owner subject fault, PropertyFault.OfPath fault ∧
      Getter.ofPath nodes node "next..value" = .error (.invalidProperty owner subject fault) := by
  have reachable : Reachable nodes := .after _ .empty
  have member : node ∈ nodes.types := List.mem_cons_self
  refine ⟨reachable, member, ?_, ?_⟩
  · apply (reachable.ofPath_exact member _).1.mpr
    exact ⟨node, _, .through offers_next rfl rfl
      (.through offers_next rfl rfl (.last offers_value))⟩
  · obtain ⟨accepted, _, refused⟩ := reachable.ofPath_exact member "next..value"
    cases answered : Getter.ofPath nodes node "next..value" with
    | ok compiled =>
        obtain ⟨final, property, navigates⟩ := accepted.mp ⟨compiled, answered⟩
        cases navigates with
        | through _ _ _ rest =>
            cases rest with
            | through offers _ _ _ => exact absurd rfl offers.nonempty
    | error failure =>
        obtain ⟨owner, subject, fault, rfl, ofPath⟩ := refused failure answered
        exact ⟨owner, subject, fault, ofPath, rfl⟩

end Registry

end

end EventQuery
