import EventQuery.Proofs.Resolution.Derivation
import EventQuery.Proofs.Specification.Typing

set_option autoImplicit false

/-! What resolved expressions refer to by position. Typing keeps every reference; it only fills
in the results of aggregation calls. -/

namespace EventQuery

/-- Something that a tree refers to by its position in the statement. -/
inductive Reference where
  | stream (index : Nat)
  | slot (index : Nat) (type : AttributeType)
  | subquery (index : Nat) (type : AttributeType)
  /-- An aggregation call, with its result type once that is known. -/
  | call (site : Nat) (result : Option ResultType)

def Reference.settled (handlers : List Handler) : Reference → Reference
  | call site result => call site ((handlers[site]?.map Handler.resultType).or result)
  | other => other

theorem Reference.settled_nil (reference : Reference) : reference.settled [] = reference := by
  cases reference <;> rfl

namespace Resolved

def reference? : Resolved → Option Reference
  | property stream _ _ => some (.stream stream)
  | wildcard stream _ => some (.stream stream)
  | prior _ stream _ => some (.stream stream)
  | substitution slot type => some (.slot slot type)
  | subquery index type => some (.subquery index type)
  | aggregation site _ result => some (.call site result)
  | _ => none

def references (tree : Resolved) : List Reference :=
  tree.nodes.filterMap reference?

def referencesOfAll (trees : List Resolved) : List Reference :=
  (nodesOfAll trees).filterMap reference?

theorem referencesOfAll_cons (tree : Resolved) (trees : List Resolved) :
    referencesOfAll (tree :: trees) = tree.references ++ referencesOfAll trees := by
  simp only [referencesOfAll, nodesOfAll, List.filterMap_append, references]

theorem referencesOfAll_singleton (tree : Resolved) :
    referencesOfAll [tree] = tree.references := by
  rw [referencesOfAll_cons]
  exact List.append_nil _

theorem referencesOfAll_pair (left right : Resolved) :
    referencesOfAll [left, right] = left.references ++ right.references := by
  rw [referencesOfAll_cons, referencesOfAll_singleton]

theorem referencesOfAll_append (trees others : List Resolved) :
    referencesOfAll (trees ++ others) = referencesOfAll trees ++ referencesOfAll others := by
  induction trees with
  | nil => rfl
  | cons tree trees ih =>
      rw [List.cons_append, referencesOfAll_cons, referencesOfAll_cons, ih, List.append_assoc]

theorem mem_referencesOfAll {reference : Reference} {trees : List Resolved} :
    reference ∈ referencesOfAll trees ↔ ∃ tree ∈ trees, reference ∈ tree.references := by
  induction trees with
  | nil => simp [referencesOfAll, nodesOfAll]
  | cons tree trees ih =>
      simp only [referencesOfAll_cons, List.mem_append, ih, List.mem_cons, exists_eq_or_imp]

@[simp]
theorem references_table {node : TableAccess} {keys : List Resolved} {type : AttributeType} :
    (table node keys type).references = referencesOfAll keys := by
  rw [references, nodes, List.filterMap_cons_none rfl, referencesOfAll]

@[simp]
theorem references_declared {name : String} {body : Resolved} :
    (declared name body).references = body.references := by
  rw [references, nodes, List.filterMap_cons_none rfl, references]

@[simp]
theorem references_script {called : Script} {arguments : List Resolved} :
    (script called arguments).references = referencesOfAll arguments := by
  rw [references, nodes, List.filterMap_cons_none rfl, referencesOfAll]

@[simp]
theorem references_math {operator : MathOperator} {left right : Resolved}
    {position : Option Position} {type : AttributeType} :
    (math operator left right position type).references = left.references ++ right.references := by
  rw [references, nodes, List.filterMap_cons_none rfl, List.filterMap_append, references,
    references]

@[simp]
theorem references_compare {operator : CompareOperator} {left right : Resolved}
    {position : Option Position} :
    (compare operator left right position).references = left.references ++ right.references := by
  rw [references, nodes, List.filterMap_cons_none rfl, List.filterMap_append, references,
    references]

@[simp]
theorem references_and {left right : Resolved} :
    (left.and right).references = left.references ++ right.references := by
  rw [references, nodes, List.filterMap_cons_none rfl, List.filterMap_append, references,
    references]

@[simp]
theorem references_or {left right : Resolved} :
    (left.or right).references = left.references ++ right.references := by
  rw [references, nodes, List.filterMap_cons_none rfl, List.filterMap_append, references,
    references]

@[simp]
theorem references_not {inner : Resolved} : inner.not.references = inner.references := by
  rw [references, nodes, List.filterMap_cons_none rfl, references]

private theorem map_append_eq {change : Reference → Reference}
    {left right left' right' : List Reference} (first : left' = left.map change)
    (second : right' = right.map change) : left' ++ right' = (left ++ right).map change := by
  rw [first, second, List.map_append]

mutual

theorem typed_references {handlers : List Handler} :
    (tree : Resolved) → {tree' : Resolved} → typed handlers tree = .ok tree' →
      tree'.references = tree.references.map (Reference.settled handlers)
  | constant _, _, run => by cases run; rfl
  | property _ _ _, _, run => by cases run; rfl
  | wildcard _ _, _, run => by cases run; rfl
  | .variable _ _, _, run => by cases run; rfl
  | substitution _ _, _, run => by cases run; rfl
  | prior _ _ _, _, run => by cases run; rfl
  | subquery _ _, _, run => by cases run; rfl
  | aggregation site position result, _, run => by
      unfold typed at run
      cases known : handlers[site]? with
      | none =>
          rw [known] at run
          cases run
          simp [references, nodes, reference?, Reference.settled, known]
      | some handler =>
          rw [known] at run
          cases run
          simp [references, nodes, reference?, Reference.settled, known]
  | table node keys type, _, run => by
      obtain ⟨keys', typedKeys, rfl⟩ := typed_table_iff.mp run
      rw [references_table, references_table]
      exact typedAll_references keys typedKeys
  | declared name body, _, run => by
      obtain ⟨body', typedBody, rfl⟩ := typed_declared_iff.mp run
      rw [references_declared, references_declared]
      exact typed_references body typedBody
  | script called arguments, _, run => by
      obtain ⟨arguments', typedArguments, rfl⟩ := typed_script_iff.mp run
      rw [references_script, references_script]
      exact typedAll_references arguments typedArguments
  | math operator left right position type, _, run => by
      obtain ⟨left', right', _, typedLeft, typedRight, _, rfl⟩ := typed_math_iff.mp run
      rw [references_math, references_math]
      exact map_append_eq (typed_references left typedLeft) (typed_references right typedRight)
  | compare operator left right position, _, run => by
      obtain ⟨left', right', typedLeft, typedRight, _, rfl⟩ := typed_compare_iff.mp run
      rw [references_compare, references_compare]
      exact map_append_eq (typed_references left typedLeft) (typed_references right typedRight)
  | and left right, _, run => by
      obtain ⟨left', right', typedLeft, typedRight, _, _, rfl⟩ := typed_and_iff.mp run
      rw [references_and, references_and]
      exact map_append_eq (typed_references left typedLeft) (typed_references right typedRight)
  | or left right, _, run => by
      obtain ⟨left', right', typedLeft, typedRight, _, _, rfl⟩ := typed_or_iff.mp run
      rw [references_or, references_or]
      exact map_append_eq (typed_references left typedLeft) (typed_references right typedRight)
  | not inner, _, run => by
      obtain ⟨inner', typedInner, _, rfl⟩ := typed_not_iff.mp run
      rw [references_not, references_not]
      exact typed_references inner typedInner

theorem typedAll_references {handlers : List Handler} :
    (trees : List Resolved) → {trees' : List Resolved} → typedAll handlers trees = .ok trees' →
      referencesOfAll trees' = (referencesOfAll trees).map (Reference.settled handlers)
  | [], _, run => by cases run; rfl
  | tree :: trees, _, run => by
      obtain ⟨tree', trees', typedTree, typedTrees, rfl⟩ := typedAll_cons_iff.mp run
      rw [referencesOfAll_cons, referencesOfAll_cons]
      exact map_append_eq (typed_references tree typedTree) (typedAll_references trees typedTrees)

end

theorem typed_nil_references {tree tree' : Resolved} (run : typed [] tree = .ok tree') :
    tree'.references = tree.references := by
  rw [typed_references tree run]
  exact (List.map_congr_left (fun reference _ => reference.settled_nil)).trans (List.map_id _)

theorem referencesOfAll_of_checkedKeys {node : TableAccess} {table : TableDefinition}
    {columns : List String} {trees keys : List Resolved}
    (checked : CheckedKeys node table columns trees keys) :
    referencesOfAll keys = referencesOfAll trees := by
  induction checked with
  | nil => rfl
  | @cons column columns tree trees key keys ok _ ih =>
      unfold Frame.checkedKey at ok
      obtain ⟨typed, filled, rest⟩ := Checked.bind_eq_ok_iff.mp ok
      have same : typed = key := by
        split at rest
        · exact (Checked.pure_eq_ok_iff.mp rest).symm
        · cases rest
      rw [referencesOfAll_cons, referencesOfAll_cons, ih, ← same, typed_nil_references filled]

end Resolved

end EventQuery
