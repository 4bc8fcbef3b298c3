import EventQuery.Proofs.Substitution.Binding
import Mathlib.Logic.Basic

set_option autoImplicit false

/-! Which values are accepted for the parameters of a statement, and what is bound. By position
these are as many values as there are slots, each of a type that its slot takes; by name they are
given under exactly the names of the parameters, and a value fits every slot of its name. -/

namespace EventQuery

/-- A value may stand where a type is declared: null and `object` suit everything, and a number
suits every type that is not narrower. -/
inductive Value.Suits : Value → AttributeType → Prop
  | null {declared : AttributeType} : Suits .null declared
  | object {value : Value} : Suits value .object
  | same {value : Value} {type : AttributeType} : value.type? = some type → Suits value type
  | wider {value : Value} {type declared : AttributeType} {narrow wide : Nat} :
      value.type? = some type → type.numericRank = some narrow →
      declared.numericRank = some wide → narrow ≤ wide → Suits value declared

theorem AttributeType.widen_eq_right_iff {type declared : AttributeType} :
    type.widen declared = some declared ↔ ∃ narrow wide, type.numericRank = some narrow ∧
      declared.numericRank = some wide ∧ narrow ≤ wide := by
  cases type <;> cases declared <;> simp [widen, numericRank]

theorem Value.fits_iff_suits {value : Value} {declared : AttributeType} :
    value.fits declared = true ↔ value.Suits declared := by
  unfold fits
  simp only [Bool.or_eq_true, decide_eq_true_eq]
  constructor
  · rintro ((rfl | isNull) | fitting)
    · exact .object
    · cases value <;> first | exact .null | cases isNull
    · cases typed : value.type? with
      | none =>
          rw [typed] at fitting
          cases fitting
      | some type =>
          rw [typed] at fitting
          simp only [Bool.or_eq_true, decide_eq_true_eq] at fitting
          rcases fitting with rfl | widened
          · exact .same typed
          · obtain ⟨narrow, wide, fromType, toDeclared, order⟩ :=
              AttributeType.widen_eq_right_iff.mp widened
            exact .wider typed fromType toDeclared order
  · intro suits
    cases suits with
    | null => exact .inl (.inr rfl)
    | object => exact .inl (.inl rfl)
    | same typed =>
        right
        rw [typed]
        simp
    | wider typed fromType toDeclared order =>
        right
        rw [typed]
        have widened := AttributeType.widen_eq_right_iff.mpr ⟨_, _, fromType, toDeclared, order⟩
        simp [widened]

/-- The slot of a parameter takes a value; a parameter without a declared type takes all. -/
def SubstitutionNode.Takes (node : SubstitutionNode) (value : Value) : Prop :=
  ∀ declared, node.declaredType = some declared → value.Suits declared

namespace StatementSpec

variable {spec : StatementSpec} {nodes : List SubstitutionNode}

theorem checkBinding_ok_iff {node : SubstitutionNode} {slot : Nat} {value : Value} :
    checkBinding node slot value = .ok () ↔ node.Takes value := by
  unfold checkBinding SubstitutionNode.Takes
  cases node.declaredType with
  | none => simp
  | some declared => simp [← Value.fits_iff_suits]

/-! ### By position -/

theorem checkPositions_ok_iff {values : List Value} (count : values.length = nodes.length)
    (slot : Nat) :
    checkPositions slot nodes values = .ok () ↔
      List.Forall₂ SubstitutionNode.Takes nodes values := by
  induction nodes generalizing values slot with
  | nil =>
      rw [List.eq_nil_of_length_eq_zero count]
      exact iff_of_true rfl .nil
  | cons node nodes ih =>
      cases values with
      | nil => cases count
      | cons value values =>
          rw [List.forall₂_cons, ← ih (Nat.succ.inj count) (slot + 1),
            ← @checkBinding_ok_iff node slot value]
          simp only [checkPositions, Checked.bind_eq_ok_iff]
          constructor
          · rintro ⟨⟨⟩, fits, others⟩
            exact ⟨fits, others⟩
          · rintro ⟨fits, others⟩
            exact ⟨(), fits, others⟩

theorem preparePositional_ok_iff {values bound : List Value} :
    spec.preparePositional values = .ok bound ↔
      (∀ node ∈ spec.substitutions, node.name = none) ∧
        List.Forall₂ SubstitutionNode.Takes spec.substitutions values ∧ bound = values := by
  have unnamed := @bindsByName_eq_false_iff spec
  simp only [SubstitutionNode.style_eq_unnamed_iff] at unnamed
  rw [← unnamed]
  unfold preparePositional
  cases spec.bindsByName with
  | true => simp
  | false =>
      by_cases count : values.length = spec.substitutions.length
      · simp only [Bool.false_eq_true, if_false, count, ne_eq, not_true_eq_false, true_and,
          Checked.map_eq_ok_iff, exists_and_right]
        rw [← checkPositions_ok_iff count 0]
        constructor
        · rintro ⟨⟨⟨⟩, fits⟩, same⟩
          exact ⟨fits, same⟩
        · rintro ⟨fits, same⟩
          exact ⟨⟨(), fits⟩, same⟩
      · simp only [Bool.false_eq_true, if_false, count, ne_eq, not_false_eq_true, if_true,
          reduceCtorEq, true_and, false_iff]
        rintro ⟨fits, _⟩
        exact count fits.length_eq.symm

/-! ### By name -/

theorem valuesByName_ok_iff {values : List (String × Value)} {bound : List Value} (slot : Nat) :
    valuesByName values slot nodes = .ok bound ↔ List.Forall₂ (fun node value =>
      values.lookup (node.name.getD "") = some value ∧ node.Takes value) nodes bound := by
  induction nodes generalizing slot bound with
  | nil => cases bound <;> simp [valuesByName]
  | cons node nodes ih =>
      rw [List.forall₂_cons_left_iff]
      unfold valuesByName
      dsimp only
      cases found : values.lookup (node.name.getD "") with
      | none =>
          apply iff_of_false
          · intro impossible
            cases impossible
          · rintro ⟨_, _, ⟨impossible, _⟩, _⟩
            cases impossible
      | some value =>
          simp only [Checked.bind_eq_ok_iff, Checked.pure_eq_ok_iff]
          constructor
          · rintro ⟨⟨⟩, fits, rest, others, same⟩
            exact ⟨value, rest, ⟨rfl, checkBinding_ok_iff.mp fits⟩, (ih _).mp others, same⟩
          · rintro ⟨_, rest, ⟨⟨⟩, fits⟩, others, same⟩
            exact ⟨(), checkBinding_ok_iff.mpr fits, rest, (ih _).mpr others, same⟩

private theorem forall₂_found_iff {α β : Type} {find : α → Option β} {fits : α → β → Prop}
    {items : List α} {found : List β} :
    List.Forall₂ (fun item value => find item = some value ∧ fits item value) items found ↔
      (∀ item ∈ items, ∀ value, find item = some value → fits item value) ∧
        List.Forall₂ (fun item value => find item = some value) items found := by
  induction items generalizing found with
  | nil => cases found <;> simp
  | cons item items ih =>
      simp only [List.forall₂_cons_left_iff, List.forall_mem_cons, ih]
      constructor
      · rintro ⟨value, rest, ⟨here, suits⟩, ⟨others, later⟩, same⟩
        refine ⟨⟨fun other again => ?_, others⟩, value, rest, here, later, same⟩
        cases here.symm.trans again
        exact suits
      · rintro ⟨⟨suits, others⟩, value, rest, here, later, same⟩
        exact ⟨value, rest, ⟨here, suits value here⟩, ⟨others, later⟩, same⟩

private theorem exists_found {α β : Type} {find : α → Option β} {items : List α}
    (each : ∀ item ∈ items, ∃ value, find item = some value) :
    ∃ found, List.Forall₂ (fun item value => find item = some value) items found := by
  induction items with
  | nil => exact ⟨[], .nil⟩
  | cons item items ih =>
      obtain ⟨⟨value, here⟩, others⟩ := List.forall_mem_cons.mp each
      obtain ⟨found, later⟩ := ih others
      exact ⟨value :: found, .cons here later⟩

def Named (values : List (String × Value)) (node : SubstitutionNode) (value : Value) : Prop :=
  ∃ name, node.name = some name ∧ values.lookup name = some value

/-- Values are given under the names of the parameters and under no others, and each of them
fits every slot of its name. -/
structure Completes (spec : StatementSpec) (values : List (String × Value)) : Prop where
  named : ∀ node ∈ spec.substitutions, node.name ≠ none
  names : ∀ name, name ∈ values.map Prod.fst ↔
    ∃ node ∈ spec.substitutions, node.name = some name
  fits : ∀ node ∈ spec.substitutions, ∀ value, Named values node value → node.Takes value

variable {values : List (String × Value)} {bound : List Value}

theorem named_iff_lookup {node : SubstitutionNode} (named : node.name ≠ none) {value : Value} :
    Named values node value ↔ values.lookup (node.name.getD "") = some value := by
  obtain ⟨name, isNamed⟩ := Option.ne_none_iff_exists'.mp named
  unfold Named
  rw [isNamed]
  simp

theorem forall₂_named_iff_lookup (named : ∀ node ∈ nodes, node.name ≠ none) :
    List.Forall₂ (Named values) nodes bound ↔ List.Forall₂ (fun node value =>
      values.lookup (node.name.getD "") = some value) nodes bound := by
  induction nodes generalizing bound with
  | nil => cases bound <;> simp
  | cons node nodes ih =>
      obtain ⟨here, others⟩ := List.forall_mem_cons.mp named
      simp only [List.forall₂_cons_left_iff, ih others, named_iff_lookup here]

private theorem refused_outright_iff (style : OneStyle spec.substitutions) :
    (!spec.substitutions.isEmpty && !spec.bindsByName) = false ↔
      ∀ node ∈ spec.substitutions, node.name ≠ none := by
  obtain ⟨style, all⟩ := style
  have unnamed := @bindsByName_eq_false_iff spec
  cases parameters : spec.substitutions with
  | nil => simp
  | cons first rest =>
      have member : first ∈ spec.substitutions := parameters ▸ List.mem_cons_self
      rw [List.isEmpty_cons, Bool.not_false, Bool.true_and, Bool.not_eq_false', ← parameters]
      cases style with
      | named =>
          apply iff_of_true
          · by_contra byPosition
            cases (all first member).symm.trans
              (unnamed.mp (Bool.eq_false_iff.mpr byPosition) first member)
          · intro node inside isUnnamed
            obtain ⟨name, named⟩ := SubstitutionNode.style_eq_named_iff.mp (all node inside)
            cases named.symm.trans isUnnamed
      | unnamed =>
          apply iff_of_false
          · rw [unnamed.mpr all]
            exact Bool.false_ne_true
          · intro named
            exact named first member (SubstitutionNode.style_eq_unnamed_iff.mp (all first member))

/-- By name exactly those values are accepted that complete the statement, and bound is for each
slot the value of its name. -/
theorem prepareNamed_ok_iff (style : OneStyle spec.substitutions)
    (distinct : (values.map Prod.fst).Nodup) :
    spec.prepareNamed values = .ok bound ↔
      spec.Completes values ∧ List.Forall₂ (Named values) spec.substitutions bound := by
  constructor
  · intro prepared
    unfold prepareNamed at prepared
    split at prepared
    · cases prepared
    · rename_i byName
      have named := (refused_outright_iff style).mp (Bool.eq_false_iff.mpr byName)
      split at prepared
      · cases prepared
      · rename_i count
        have keys := mem_keys_of_valuesByName prepared
        have same := parameterNames_perm_keys (not_not.mp count) (by
          intro node member name isNamed
          have given := keys node member
          rwa [isNamed] at given)
        obtain ⟨fits, found⟩ := forall₂_found_iff.mp ((valuesByName_ok_iff 0).mp prepared)
        refine ⟨⟨named, fun name => ?_, fun node member value isValue => ?_⟩,
          (forall₂_named_iff_lookup named).mpr found⟩
        · rw [← same.mem_iff, mem_parameterNames_iff]
        · exact fits node member value ((named_iff_lookup (named node member)).mp isValue)
  · rintro ⟨completes, found⟩
    have keys : (values.map Prod.fst).Perm spec.parameterNames := by
      refine (List.perm_ext_iff_of_nodup distinct nodup_parameterNames).mpr (fun name => ?_)
      rw [completes.names, mem_parameterNames_iff]
    have count : values.length = spec.parameterNames.length := by
      rw [← keys.length_eq, List.length_map]
    have fits : ∀ node ∈ spec.substitutions, ∀ value,
        values.lookup (node.name.getD "") = some value → node.Takes value :=
      fun node member value isValue => completes.fits node member value
        ((named_iff_lookup (completes.named node member)).mpr isValue)
    unfold prepareNamed
    rw [(refused_outright_iff style).mpr completes.named, if_neg Bool.false_ne_true,
      if_neg (not_not.mpr count), valuesByName_ok_iff]
    exact forall₂_found_iff.mpr ⟨fits, (forall₂_named_iff_lookup completes.named).mp found⟩

theorem Completes.exists_bound (completes : spec.Completes values) :
    ∃ bound, List.Forall₂ (Named values) spec.substitutions bound := by
  simp only [forall₂_named_iff_lookup completes.named]
  refine exists_found (fun node member => ?_)
  obtain ⟨name, isNamed⟩ := Option.ne_none_iff_exists'.mp (completes.named node member)
  have given := (completes.names name).mpr ⟨node, member, isNamed⟩
  obtain ⟨entry, inside, rfl⟩ := List.mem_map.mp given
  rw [isNamed]
  exact Option.isSome_iff_exists.mp
    (List.lookup_isSome_iff.mpr ⟨entry, inside, beq_self_eq_true _⟩)

/-- A statement with parameters can be bound in one of the two ways and never in the other. -/
theorem exists_bound_in_one_way (style : OneStyle spec.substitutions)
    (parametrized : spec.substitutions ≠ []) :
    Xor (∃ values bound, spec.preparePositional values = .ok bound)
      (∃ values bound, (values.map Prod.fst).Nodup ∧ spec.prepareNamed values = .ok bound) := by
  rw [exists_preparePositional_iff, exists_prepareNamed_iff]
  obtain ⟨style, all⟩ := style
  obtain ⟨first, member⟩ := List.exists_mem_of_ne_nil _ parametrized
  cases style with
  | unnamed =>
      refine .inl ⟨all, fun known => ?_⟩
      obtain ⟨node, inside, named⟩ := mem_parameterNames_iff.mp (known first member)
      cases (SubstitutionNode.style_eq_unnamed_iff.mp (all node inside)).symm.trans named
  | named =>
      refine .inr ⟨fun node inside => ?_, fun unnamed => ?_⟩
      · obtain ⟨name, named⟩ := SubstitutionNode.style_eq_named_iff.mp (all node inside)
        rw [named]
        exact mem_parameterNames_iff.mpr ⟨node, inside, named⟩
      · cases (all first member).symm.trans (unnamed first member)

/-- For parameters that are all named or all unnamed: by position exactly as many values are
accepted as there are slots, each of which its slot takes, and they are bound as they are; by
name exactly those are accepted that complete the statement, and each slot gets the value of its
name. A statement with parameters can be bound in one of the two ways only. -/
theorem prepared_exactly (style : OneStyle spec.substitutions) :
    (∀ values bound, spec.preparePositional values = .ok bound ↔
      (∀ node ∈ spec.substitutions, node.name = none) ∧
        List.Forall₂ SubstitutionNode.Takes spec.substitutions values ∧ bound = values) ∧
    (∀ values : List (String × Value), (values.map Prod.fst).Nodup →
      ((∃ bound, spec.prepareNamed values = .ok bound) ↔ spec.Completes values) ∧
      ∀ bound, spec.prepareNamed values = .ok bound →
        List.Forall₂ (Named values) spec.substitutions bound) ∧
    (spec.substitutions ≠ [] →
      Xor (∃ values bound, spec.preparePositional values = .ok bound)
        (∃ values bound, (values.map Prod.fst).Nodup ∧ spec.prepareNamed values = .ok bound)) := by
  refine ⟨fun values bound => preparePositional_ok_iff, fun values distinct => ⟨?_, ?_⟩, ?_⟩
  · simp only [prepareNamed_ok_iff style distinct, exists_and_left]
    exact ⟨And.left, fun completes => ⟨completes, completes.exists_bound⟩⟩
  · intro bound prepared
    exact ((prepareNamed_ok_iff style distinct).mp prepared).2
  · exact exists_bound_in_one_way style

private def priced : StatementSpec :=
  { StatementSpec.named "s" with
    substitutions := [⟨none, some "limit", some .long⟩, ⟨none, some "limit", some .double⟩,
      ⟨none, some "symbol", none⟩] }

/-- One name at two slots of different types: an `int` suits both, a `double` only one. -/
theorem prepared_exactly_priced :
    OneStyle priced.substitutions ∧
    (["symbol", "limit"] : List String).Nodup ∧
    (∃ bound, priced.prepareNamed [("symbol", .null), ("limit", .int 3)] = .ok bound ∧
      List.Forall₂ (Named [("symbol", .null), ("limit", .int 3)]) priced.substitutions bound) ∧
    ¬ priced.Completes [("symbol", .null), ("limit", .double ⟨0⟩)] ∧
    (∀ values bound, priced.preparePositional values ≠ .ok bound) ∧
    priced.substitutions ≠ [] ∧
    Xor (∃ values bound, priced.preparePositional values = .ok bound)
      (∃ values bound, (values.map Prod.fst).Nodup ∧ priced.prepareNamed values = .ok bound) := by
  have style : OneStyle priced.substitutions := ⟨.named, by decide⟩
  have distinct : (["symbol", "limit"] : List String).Nodup := by decide
  have parametrized : priced.substitutions ≠ [] := List.cons_ne_nil _ _
  obtain ⟨byPosition, byName, oneWay⟩ := @prepared_exactly priced style
  have fitting := byName [("symbol", .null), ("limit", .int 3)] distinct
  have unfit := byName [("symbol", .null), ("limit", .double ⟨0⟩)] distinct
  refine ⟨style, distinct, ⟨_, rfl, fitting.2 _ rfl⟩, ?_, ?_, parametrized, oneWay parametrized⟩
  · intro completes
    obtain ⟨_, prepared⟩ := unfit.1.mpr completes
    cases prepared
  · intro values bound prepared
    have unnamed := ((byPosition values bound).mp prepared).1 ⟨none, some "symbol", none⟩
      (by decide)
    cases unnamed

end StatementSpec

end EventQuery
