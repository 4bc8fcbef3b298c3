import EventQuery.Proofs.Checked
import EventQuery.Proofs.Resolution.Leaves
import EventQuery.Proofs.Symbols.Listing
import EventQuery.Statement.Binding
import Mathlib.Data.List.Perm.Subperm

set_option autoImplicit false

/-! Which statements can be bound at all. Null fits every declared type, so all depends on the
names: values are given by position when no parameter has a name, and by name when every
parameter has one. An unnamed parameter among named ones is looked up under the empty name,
which is of use only if a parameter is called so. -/

namespace EventQuery

def OneStyle (nodes : List SubstitutionNode) : Prop :=
  ∃ style, ∀ node ∈ nodes, node.style = style

theorem oneStyle_nil : OneStyle [] :=
  ⟨.named, List.forall_mem_nil _⟩

theorem oneStyle_append_iff {earlier later : List SubstitutionNode} :
    OneStyle (earlier ++ later) ↔ OneStyle earlier ∧ OneStyle later ∧
      ∀ node ∈ earlier, ∀ other ∈ later, node.style = other.style := by
  constructor
  · rintro ⟨style, all⟩
    obtain ⟨first, second⟩ := List.forall_mem_append.mp all
    refine ⟨⟨style, first⟩, ⟨style, second⟩, ?_⟩
    intro node member other further
    rw [first node member, second other further]
  · rintro ⟨⟨style, first⟩, second, across⟩
    cases earlier with
    | nil => exact second
    | cons node rest =>
        refine ⟨style, List.forall_mem_append.mpr ⟨first, ?_⟩⟩
        intro other member
        rw [← across node List.mem_cons_self other member, first node List.mem_cons_self]

theorem SubstitutionNode.style_eq_named_iff {node : SubstitutionNode} :
    node.style = .named ↔ ∃ name, node.name = some name := by
  unfold style
  cases node.name <;> simp

theorem SubstitutionNode.style_eq_unnamed_iff {node : SubstitutionNode} :
    node.style = .unnamed ↔ node.name = none := by
  unfold style
  cases node.name <;> simp

namespace StatementSpec

variable {spec : StatementSpec} {nodes : List SubstitutionNode}

theorem bindsByName_eq_false_iff :
    spec.bindsByName = false ↔ ∀ node ∈ spec.substitutions, node.style = .unnamed := by
  unfold bindsByName
  simp only [List.any_eq_false, SubstitutionNode.style_eq_unnamed_iff, Option.isSome_iff_ne_none,
    not_not]

private theorem nodup_foldl_addName {names found : List String} (distinct : found.Nodup) :
    (names.foldl SymbolContext.addName found).Nodup := by
  induction names generalizing found with
  | nil => exact distinct
  | cons first names ih =>
      rw [List.foldl_cons]
      apply ih
      unfold SymbolContext.addName
      split
      · exact distinct
      · rename_i fresh
        rw [List.contains_iff_mem] at fresh
        refine List.nodup_append.mpr ⟨distinct, List.pairwise_singleton _ _, ?_⟩
        intro name member other single
        rw [List.mem_singleton.mp single]
        rintro rfl
        exact fresh member

theorem mem_parameterNames_iff {name : String} :
    name ∈ spec.parameterNames ↔ ∃ node ∈ spec.substitutions, node.name = some name := by
  unfold parameterNames
  rw [SymbolContext.mem_foldl_addName_iff, List.mem_filterMap]
  simp

theorem nodup_parameterNames : spec.parameterNames.Nodup :=
  nodup_foldl_addName List.nodup_nil

theorem checkBinding_null (node : SubstitutionNode) (slot : Nat) :
    checkBinding node slot .null = .ok () := by
  unfold checkBinding
  cases node.declaredType with
  | none => rfl
  | some declared =>
      have fits : Value.null.fits declared = true := by
        simp [Value.fits, Value.isNull]
      simp only [fits, if_true]

theorem checkPositions_null (nodes : List SubstitutionNode) (slot : Nat) :
    checkPositions slot nodes (nodes.map (fun _ => .null)) = .ok () := by
  induction nodes generalizing slot with
  | nil => rfl
  | cons node nodes ih =>
      simp only [List.map_cons, checkPositions, checkBinding_null]
      exact ih (slot + 1)

theorem valuesByName_null {values : List (String × Value)}
    (known : ∀ node ∈ nodes, values.lookup (node.name.getD "") = some .null) (slot : Nat) :
    valuesByName values slot nodes = .ok (nodes.map (fun _ => .null)) := by
  induction nodes generalizing slot with
  | nil => rfl
  | cons node nodes ih =>
      have rest := ih (fun other member => known other (List.mem_cons_of_mem _ member)) (slot + 1)
      simp only [valuesByName, known node List.mem_cons_self, checkBinding_null, rest]
      rfl

theorem mem_keys_of_valuesByName {values : List (String × Value)} {slot : Nat}
    {bound : List Value} (found : valuesByName values slot nodes = .ok bound) :
    ∀ node ∈ nodes, node.name.getD "" ∈ values.map Prod.fst := by
  induction nodes generalizing slot bound with
  | nil => exact List.forall_mem_nil _
  | cons node nodes ih =>
      unfold valuesByName at found
      cases known : values.lookup (node.name.getD "") with
      | none =>
          simp only [known] at found
          cases found
      | some value =>
          simp only [known, Checked.bind_eq_ok_iff] at found
          obtain ⟨_, _, rest, others, _⟩ := found
          refine List.forall_mem_cons.mpr ⟨?_, ih others⟩
          exact List.mem_map_of_mem (f := Prod.fst) (Entries.mem_of_lookup known)

theorem parameterNames_perm_keys {values : List (String × Value)}
    (count : values.length = spec.parameterNames.length)
    (given : ∀ node ∈ spec.substitutions, ∀ name, node.name = some name →
      name ∈ values.map Prod.fst) : spec.parameterNames.Perm (values.map Prod.fst) := by
  have all : spec.parameterNames ⊆ values.map Prod.fst := by
    intro name isName
    obtain ⟨node, member, named⟩ := mem_parameterNames_iff.mp isName
    exact given node member name named
  refine (List.subperm_of_subset nodup_parameterNames all).perm_of_length_le ?_
  rw [List.length_map]
  exact Nat.le_of_eq count

/-- There are values with which the statement can be executed. -/
def Bindable (spec : StatementSpec) : Prop :=
  (∃ values bound, spec.preparePositional values = .ok bound) ∨
    ∃ values bound, (values.map Prod.fst).Nodup ∧ spec.prepareNamed values = .ok bound

theorem exists_preparePositional_iff :
    (∃ values bound, spec.preparePositional values = .ok bound) ↔
      ∀ node ∈ spec.substitutions, node.style = .unnamed := by
  rw [← bindsByName_eq_false_iff]
  unfold preparePositional
  constructor
  · rintro ⟨values, bound, prepared⟩
    split at prepared
    · cases prepared
    · rename_i unnamed
      exact Bool.eq_false_iff.mpr unnamed
  · intro unnamed
    have count : ¬ (spec.substitutions.map (fun _ => Value.null)).length ≠
        spec.substitutions.length := not_not.mpr (List.length_map _)
    refine ⟨spec.substitutions.map (fun _ => .null), spec.substitutions.map (fun _ => .null), ?_⟩
    rw [unnamed, if_neg Bool.false_ne_true, if_neg count, checkPositions_null]
    rfl

private theorem lookup_nulls {names : List String} {name : String} (member : name ∈ names) :
    (names.map (fun name => (name, Value.null))).lookup name = some .null := by
  induction names with
  | nil => cases member
  | cons first names ih =>
      rw [List.map_cons, List.lookup_cons]
      split
      · rfl
      · rename_i different
        rcases List.mem_cons.mp member with rfl | later
        · rw [beq_self_eq_true] at different
          cases different
        · exact ih later

theorem exists_prepareNamed_iff :
    (∃ values bound, (values.map Prod.fst).Nodup ∧ spec.prepareNamed values = .ok bound) ↔
      ∀ node ∈ spec.substitutions, node.name.getD "" ∈ spec.parameterNames := by
  constructor
  · rintro ⟨values, bound, distinct, prepared⟩ node member
    unfold prepareNamed at prepared
    split at prepared
    · cases prepared
    · split at prepared
      · cases prepared
      · rename_i count
        have keys := mem_keys_of_valuesByName prepared
        have same := parameterNames_perm_keys (not_not.mp count) (by
          intro other inside name named
          have given := keys other inside
          rwa [named] at given)
        exact same.mem_iff.mpr (keys node member)
  · intro known
    have named : (!spec.substitutions.isEmpty && !spec.bindsByName) = false := by
      cases byName : spec.bindsByName with
      | true => exact Bool.and_false _
      | false =>
          cases parameters : spec.substitutions with
          | nil => rfl
          | cons node rest =>
              have member : node ∈ spec.substitutions := parameters ▸ List.mem_cons_self
              obtain ⟨other, inside, isNamed⟩ := mem_parameterNames_iff.mp (known node member)
              have unnamed := SubstitutionNode.style_eq_unnamed_iff.mp
                (bindsByName_eq_false_iff.mp byName other inside)
              cases unnamed.symm.trans isNamed
    have count : ¬ (spec.parameterNames.map (fun name => (name, Value.null))).length ≠
        spec.parameterNames.length := not_not.mpr (List.length_map _)
    refine ⟨spec.parameterNames.map (fun name => (name, .null)),
      spec.substitutions.map (fun _ => .null), ?_, ?_⟩
    · have keys : (spec.parameterNames.map (fun name => (name, Value.null))).map Prod.fst =
          spec.parameterNames := (List.map_map).trans (List.map_id _)
      rw [keys]
      exact nodup_parameterNames
    · unfold prepareNamed
      rw [named, if_neg Bool.false_ne_true, if_neg count]
      exact valuesByName_null (fun node member => lookup_nulls (known node member)) 0

/-- A statement can be bound if its parameters have one style. If they have not, it can be bound
only if one of them has the empty name. -/
theorem bindable_iff : spec.Bindable ↔
    OneStyle spec.substitutions ∨ ∃ node ∈ spec.substitutions, node.name = some "" := by
  unfold Bindable
  rw [exists_preparePositional_iff, exists_prepareNamed_iff]
  constructor
  · rintro (unnamed | known)
    · exact .inl ⟨_, unnamed⟩
    · by_cases named : ∀ node ∈ spec.substitutions, node.style = .named
      · exact .inl ⟨_, named⟩
      · obtain ⟨node, member, other⟩ := not_forall₂.mp named
        have unnamed : node.name = none := by
          rw [SubstitutionNode.style_eq_named_iff] at other
          exact Option.eq_none_iff_forall_ne_some.mpr (not_exists.mp other)
        have isEmpty := known node member
        rw [unnamed] at isEmpty
        exact .inr (mem_parameterNames_iff.mp isEmpty)
  · rintro (⟨style, all⟩ | ⟨empty, member, isEmpty⟩)
    · cases style with
      | unnamed => exact .inl all
      | named =>
          refine .inr (fun node member => ?_)
          obtain ⟨name, named⟩ := SubstitutionNode.style_eq_named_iff.mp (all node member)
          rw [named]
          exact mem_parameterNames_iff.mpr ⟨node, member, named⟩
    · refine .inr (fun node inside => ?_)
      cases named : node.name with
      | none => exact mem_parameterNames_iff.mpr ⟨empty, member, isEmpty⟩
      | some name => exact mem_parameterNames_iff.mpr ⟨node, inside, named⟩

end StatementSpec

end EventQuery
