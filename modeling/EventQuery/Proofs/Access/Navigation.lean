import EventQuery.Proofs.Access.Capabilities

set_option autoImplicit false

/-! A path reads what its parts read one after the other. Wherever a path is cut in two, the
getter of the whole answers as the getter of the second part does about the fragment that the
getter of the first part gives, although it makes no event of what is in between. -/

namespace EventQuery.Getter

variable {registry : Registry} {type : EventType}

/-- The getter is made of the getters of a front part and of the rest of its path. -/
inductive Chains : Getter → Getter → Getter → Prop
  | cut (outer inner : Getter) (type : EventType) : Chains (nested outer inner type) outer inner
  | later {whole first second : Getter} (outer : Getter) (type : EventType) :
      Chains whole first second →
      Chains (nested outer whole type) (nested outer first type) second

namespace Chains

variable {whole first second : Getter}

theorem representation_eq (chains : Chains whole first second) :
    first.representation = whole.representation := by
  cases chains with
  | cut outer inner type => rfl
  | later outer type chains => rfl

theorem wellFormed_first (chains : Chains whole first second) (wellFormed : whole.WellFormed) :
    first.WellFormed := by
  induction chains with
  | cut outer inner type => exact wellFormed.1
  | later outer type chains ih =>
      obtain ⟨outerFormed, restFormed, declared, same⟩ := wellFormed
      exact ⟨outerFormed, ih restFormed, declared, chains.representation_eq.trans same⟩

end Chains

theorem chains_of_ofSegments {front back : List String} {whole : CompiledProperty}
    (someFront : front ≠ []) (someBack : back ≠ [])
    (built : ofSegments registry type (front ++ back) = .ok whole) :
    ∃ first fragment second, ofSegments registry type front = .ok first ∧
      first.fragment = some fragment ∧ ofSegments registry fragment back = .ok second ∧
      Chains whole.getter first.getter second.getter := by
  induction front generalizing type whole with
  | nil => exact absurd rfl someFront
  | cons head rest ih =>
      cases rest with
      | nil =>
          obtain ⟨next, rest, rfl⟩ := List.exists_cons_of_ne_nil someBack
          obtain ⟨named, outer, fragment, inner, outerBuilt, declared, innerBuilt, rfl⟩ :=
            ofSegments_cons_eq_ok_iff.mp built
          exact ⟨outer, fragment, inner, ofSegments_one_eq_ok_iff.mpr ⟨named, outerBuilt⟩,
            declared, innerBuilt, .cut _ _ _⟩
      | cons next rest =>
          obtain ⟨named, outer, fragment, inner, outerBuilt, declared, innerBuilt, rfl⟩ :=
            ofSegments_cons_eq_ok_iff.mp built
          obtain ⟨first, last, second, firstBuilt, leads, secondBuilt, chains⟩ :=
            ih (List.cons_ne_nil next rest) innerBuilt
          refine ⟨⟨.nested outer.getter first.getter fragment, first.type, first.fragment⟩, last,
            second, ?_, leads, secondBuilt, .later _ _ chains⟩
          exact ofSegments_cons_eq_ok_iff.mpr
            ⟨named, outer, fragment, first, outerBuilt, declared, firstBuilt, rfl⟩

section

variable {α : Type} (otherwise : α) (answer : Getter → Store → α)

/-- An answer about an event: about its backing store, if that is of the representation that
the getter reads. -/
def asked (getter : Getter) (store : Store) : α :=
  if store.representation = getter.representation then answer getter store else otherwise

def Passes : Prop :=
  ∀ outer inner type store, answer (nested outer inner type) store =
    ((outer.valueIn store).inside? inner.representation).elim otherwise (answer inner)

variable {otherwise answer}

theorem elim_inside? {fragment : EventType} {inner : Getter}
    (same : inner.representation = fragment.representation) (value : Value) :
    (value.inside? inner.representation).elim otherwise (answer inner) =
      (value.fragment? (some fragment)).elim otherwise
        (fun found => asked otherwise answer inner found.store) := by
  cases value with
  | event held =>
      by_cases fits : held.store.representation = inner.representation
      · simp only [Value.inside?, Value.classify, Value.fragment?, if_pos fits, Option.elim_some]
        exact (if_pos fits).symm
      · simp only [Value.inside?, Value.classify, Value.fragment?, if_neg fits, Option.elim_some,
          Option.elim_none]
        exact (if_neg fits).symm
  | raw store =>
      by_cases fits : store.representation = inner.representation
      · have declared : store.representation = fragment.representation := fits.trans same
        simp only [Value.inside?, Value.classify, Value.fragment?, if_pos fits, if_pos declared,
          Option.elim_some]
        exact (if_pos fits).symm
      · have undeclared : store.representation ≠ fragment.representation := by
          intro declared
          exact fits (declared.trans same.symm)
        simp only [Value.inside?, Value.classify, Value.fragment?, if_neg fits,
          if_neg undeclared, Option.elim_none]
  | _ => rfl

theorem asked_nested (passes : Passes otherwise answer) {outer inner : Getter}
    (wellFormed : (nested outer inner type).WellFormed) (store : Store) :
    asked otherwise answer (nested outer inner type) store =
      (outer.fragment? store).elim otherwise
        (fun found => asked otherwise answer inner found.store) := by
  obtain ⟨outerFormed, _, declared, same⟩ := wellFormed
  unfold fragment?
  change (if store.representation = outer.representation then _ else otherwise) = _
  by_cases fits : store.representation = outer.representation
  · rw [if_pos fits, if_pos fits, passes, fragmentIn?_eq outerFormed, declared]
    exact elim_inside? same _
  · rw [if_neg fits, if_neg fits]
    rfl

theorem passes_valueIn : Passes .null valueIn := valueIn_nested

theorem passes_presentIn : Passes false presentIn := presentIn_nested

theorem passes_fragmentIn? : Passes none fragmentIn? := by
  intro outer inner type store
  rw [fragmentIn?_nested]
  cases (outer.valueIn store).inside? inner.representation with
  | none => rfl
  | some intermediate => rfl

theorem fragment?_nested {outer inner : Getter}
    (wellFormed : (nested outer inner type).WellFormed) (store : Store) :
    (nested outer inner type).fragment? store =
      (outer.fragment? store).bind (fun found => inner.fragment? found.store) := by
  refine (asked_nested passes_fragmentIn? wellFormed store).trans ?_
  cases outer.fragment? store with
  | none => rfl
  | some found => rfl

theorem asked_chain (passes : Passes otherwise answer) {whole first second : Getter}
    (chains : Chains whole first second) (wellFormed : whole.WellFormed) (store : Store) :
    asked otherwise answer whole store =
      (first.fragment? store).elim otherwise
        (fun found => asked otherwise answer second found.store) := by
  -- On the front part: its last step is the first of the rest.
  induction chains generalizing store with
  | cut outer inner type => exact asked_nested passes wellFormed store
  | later outer type chains ih =>
      have firstFormed := (Chains.later outer type chains).wellFormed_first wellFormed
      rw [asked_nested passes wellFormed, fragment?_nested firstFormed]
      cases outer.fragment? store with
      | none => rfl
      | some found => exact ih wellFormed.2.1 found.store

end

theorem readOrNull_eq_asked (getter : Getter) (store : Store) :
    getter.readOrNull store = asked .null valueIn getter store := by
  unfold readOrNull asked
  by_cases same : store.representation = getter.representation
  · rw [read_eq same, if_pos same]
  · rw [read_foreign same, if_neg same]

theorem present_eq_asked (getter : Getter) (store : Store) :
    getter.present store = asked false presentIn getter store := by
  unfold present asked
  by_cases same : store.representation = getter.representation
  · rw [decide_eq_true same, Bool.true_and, if_pos same]
  · rw [decide_eq_false same, Bool.false_and, if_neg same]

theorem read_eq_ok {getter : Getter} {store : Store}
    (same : store.representation = getter.representation) :
    getter.read store = .ok (getter.readOrNull store) := by
  unfold readOrNull
  rw [read_eq same]

namespace Chains

variable {whole first second : Getter}

theorem readOrNull_eq (chains : Chains whole first second) (wellFormed : whole.WellFormed)
    (store : Store) : whole.readOrNull store =
      (first.fragment? store).elim .null (fun found => second.readOrNull found.store) := by
  simp only [readOrNull_eq_asked]
  exact asked_chain passes_valueIn chains wellFormed store

theorem present_eq (chains : Chains whole first second) (wellFormed : whole.WellFormed)
    (store : Store) : whole.present store =
      (first.fragment? store).elim false (fun found => second.present found.store) := by
  simp only [present_eq_asked]
  exact asked_chain passes_presentIn chains wellFormed store

theorem fragment?_eq (chains : Chains whole first second) (wellFormed : whole.WellFormed)
    (store : Store) : whole.fragment? store =
      (first.fragment? store).elim none (fun found => second.fragment? found.store) :=
  asked_chain passes_fragmentIn? chains wellFormed store

end Chains

/-- A path that is compiled may be cut at any of its dots. Both parts compile, the second one
for the fragment type of the first, and about every event the whole answers what the second part
answers about the fragment that the first part gives. -/
theorem reads_step_by_step {front back : String} {whole : CompiledProperty}
    (built : ofPath registry type (front ++ "." ++ back) = .ok whole) :
    ∃ first fragment second, ofPath registry type front = .ok first ∧
      first.fragment = some fragment ∧ ofPath registry fragment back = .ok second ∧
      ∀ store, store.representation = type.representation →
        whole.getter.read store = .ok ((first.getter.fragment? store).elim .null
          (fun found => second.getter.readOrNull found.store)) ∧
        whole.getter.present store = (first.getter.fragment? store).elim false
          (fun found => second.getter.present found.store) ∧
        whole.getter.fragment? store = (first.getter.fragment? store).elim none
          (fun found => second.getter.fragment? found.store) := by
  have builtFor := builtFor_ofSegments built
  unfold ofPath at built
  rw [Text.segments_append] at built
  obtain ⟨first, fragment, second, firstBuilt, leads, secondBuilt, chains⟩ :=
    chains_of_ofSegments (Text.segments_ne_nil front) (Text.segments_ne_nil back) built
  refine ⟨first, fragment, second, firstBuilt, leads, secondBuilt, ?_⟩
  intro store fits
  refine ⟨?_, chains.present_eq builtFor.wellFormed store,
    chains.fragment?_eq builtFor.wellFormed store⟩
  rw [read_eq_ok (fits.trans builtFor.representation.symm),
    chains.readOrNull_eq builtFor.wellFormed]

private def street : EventType := .objectArray "Street" [.scalar "name" .string]

private def house : EventType := .map "House" [.ofFragment "street" "Street"]

private def visit : EventType := .map "Visit" [.ofFragment "house" "House"]

private def visits : Registry := ⟨[visit, house, street]⟩

private def visited : Store :=
  .map [("house", .event ⟨0, house, .map [("street", .raw (.array [.string "Elm"]))]⟩)]

private theorem built_streetName : ofPath visits visit ("house.street" ++ "." ++ "name") =
    .ok ⟨.nested (.mapEntry "house" (some house))
      (.nested (.mapEntry "street" (some street)) (.arraySlot 0 none) street) house,
      .string, none⟩ := rfl

/-- Through an event and a raw array, in one step and in two. -/
theorem reads_step_by_step_streetName :
    visited.representation = visit.representation ∧
    ∃ first fragment second, ofPath visits visit "house.street" = .ok first ∧
      first.fragment = some fragment ∧ ofPath visits fragment "name" = .ok second ∧
      (first.getter.fragment? visited).elim .null
        (fun found => second.getter.readOrNull found.store) = .string "Elm" := by
  obtain ⟨first, fragment, second, firstBuilt, leads, secondBuilt, answers⟩ :=
    reads_step_by_step built_streetName
  refine ⟨rfl, first, fragment, second, firstBuilt, leads, secondBuilt, ?_⟩
  exact Except.ok.inj (answers visited rfl).1.symm

end EventQuery.Getter
