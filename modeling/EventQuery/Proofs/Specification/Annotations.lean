import EventQuery.Proofs.Specification.TypingRules

set_option autoImplicit false

/-! Types that an earlier typing left in a tree. Typing overwrites all of them, so it comes to the
same whatever they are, and once they are in place it changes nothing any more. -/

namespace EventQuery.Resolved

mutual

/-- The tree without the types that typing fills in. -/
def unannotated : Resolved → Resolved
  | aggregation site position _ => aggregation site position none
  | table node keys type => table node (unannotatedAll keys) type
  | declared name body => declared name body.unannotated
  | script called arguments => script called (unannotatedAll arguments)
  | math operator left right position _ =>
      math operator left.unannotated right.unannotated position .object
  | compare operator left right position =>
      compare operator left.unannotated right.unannotated position
  | and left right => and left.unannotated right.unannotated
  | or left right => or left.unannotated right.unannotated
  | not inner => not inner.unannotated
  | leaf => leaf
termination_by structural tree => tree

def unannotatedAll : List Resolved → List Resolved
  | [] => []
  | tree :: rest => tree.unannotated :: unannotatedAll rest
termination_by structural trees => trees

end

variable {handlers : List Handler}

mutual

theorem unannotated_of_typed : (tree : Resolved) → {tree' : Resolved} →
    typed handlers tree = .ok tree' → tree'.unannotated = tree.unannotated
  | constant _, _, run => by cases run; rfl
  | property _ _ _, _, run => by cases run; rfl
  | wildcard _ _, _, run => by cases run; rfl
  | .variable _ _, _, run => by cases run; rfl
  | substitution _ _, _, run => by cases run; rfl
  | prior _ _ _, _, run => by cases run; rfl
  | subquery _ _, _, run => by cases run; rfl
  | aggregation site position result, _, run => by
      obtain ⟨_, rfl, _⟩ := typed_aggregation run
      rfl
  | table node keys type, _, run => by
      obtain ⟨keys', typedKeys, rfl⟩ := typed_table_iff.mp run
      rw [unannotated, unannotated, unannotatedAll_of_typedAll keys typedKeys]
  | declared name body, _, run => by
      obtain ⟨body', typedBody, rfl⟩ := typed_declared_iff.mp run
      rw [unannotated, unannotated, unannotated_of_typed body typedBody]
  | script called arguments, _, run => by
      obtain ⟨arguments', typedArguments, rfl⟩ := typed_script_iff.mp run
      rw [unannotated, unannotated, unannotatedAll_of_typedAll arguments typedArguments]
  | math operator left right position type, _, run => by
      obtain ⟨left', right', _, typedLeft, typedRight, _, rfl⟩ := typed_math_iff.mp run
      rw [unannotated, unannotated, unannotated_of_typed left typedLeft,
        unannotated_of_typed right typedRight]
  | compare operator left right position, _, run => by
      obtain ⟨left', right', typedLeft, typedRight, _, rfl⟩ := typed_compare_iff.mp run
      rw [unannotated, unannotated, unannotated_of_typed left typedLeft,
        unannotated_of_typed right typedRight]
  | and left right, _, run => by
      obtain ⟨left', right', typedLeft, typedRight, _, _, rfl⟩ := typed_and_iff.mp run
      rw [unannotated, unannotated, unannotated_of_typed left typedLeft,
        unannotated_of_typed right typedRight]
  | or left right, _, run => by
      obtain ⟨left', right', typedLeft, typedRight, _, _, rfl⟩ := typed_or_iff.mp run
      rw [unannotated, unannotated, unannotated_of_typed left typedLeft,
        unannotated_of_typed right typedRight]
  | not inner, _, run => by
      obtain ⟨inner', typedInner, _, rfl⟩ := typed_not_iff.mp run
      rw [unannotated, unannotated, unannotated_of_typed inner typedInner]

theorem unannotatedAll_of_typedAll : (trees : List Resolved) → {trees' : List Resolved} →
    typedAll handlers trees = .ok trees' → unannotatedAll trees' = unannotatedAll trees
  | [], _, run => by cases run; rfl
  | tree :: trees, _, run => by
      obtain ⟨tree', trees', head, tail, rfl⟩ := typedAll_cons_iff.mp run
      rw [unannotatedAll, unannotatedAll, unannotated_of_typed tree head,
        unannotatedAll_of_typedAll trees tail]

end

mutual

/-- Where every call has a handler, typing does not look at the types that are there. -/
theorem typed_unannotated : (tree : Resolved) → Covered handlers tree.nodes →
    typed handlers tree.unannotated = typed handlers tree
  | constant _, _ => rfl
  | property _ _ _, _ => rfl
  | wildcard _ _, _ => rfl
  | .variable _ _, _ => rfl
  | substitution _ _, _ => rfl
  | prior _ _ _, _ => rfl
  | subquery _ _, _ => rfl
  | aggregation site position result, covered => by
      obtain ⟨handler, found⟩ := covered.handler List.mem_cons_self
      rw [unannotated, typed, typed, found]
  | table node keys type, covered => by
      rw [unannotated, typed, typed, typedAll_unannotated keys covered.below]
  | declared name body, covered => by
      rw [unannotated, typed, typed, typed_unannotated body covered.below]
  | script called arguments, covered => by
      rw [unannotated, typed, typed, typedAll_unannotated arguments covered.below]
  | math operator left right position type, covered => by
      obtain ⟨coveredLeft, coveredRight⟩ := covered_append_iff.mp covered.below
      rw [unannotated, typed, typed, typed_unannotated left coveredLeft,
        typed_unannotated right coveredRight]
  | compare operator left right position, covered => by
      obtain ⟨coveredLeft, coveredRight⟩ := covered_append_iff.mp covered.below
      rw [unannotated, typed, typed, typed_unannotated left coveredLeft,
        typed_unannotated right coveredRight]
  | and left right, covered => by
      obtain ⟨coveredLeft, coveredRight⟩ := covered_append_iff.mp covered.below
      rw [unannotated, typed, typed, typed_unannotated left coveredLeft,
        typed_unannotated right coveredRight]
  | or left right, covered => by
      obtain ⟨coveredLeft, coveredRight⟩ := covered_append_iff.mp covered.below
      rw [unannotated, typed, typed, typed_unannotated left coveredLeft,
        typed_unannotated right coveredRight]
  | not inner, covered => by
      rw [unannotated, typed, typed, typed_unannotated inner covered.below]

theorem typedAll_unannotated : (trees : List Resolved) → Covered handlers (nodesOfAll trees) →
    typedAll handlers (unannotatedAll trees) = typedAll handlers trees
  | [], _ => rfl
  | tree :: trees, covered => by
      obtain ⟨coveredHead, coveredTail⟩ := covered_append_iff.mp covered
      rw [unannotatedAll, typedAll, typedAll, typed_unannotated tree coveredHead,
        typedAll_unannotated trees coveredTail]

end

mutual

theorem nodes_unannotated : (tree : Resolved) →
    tree.unannotated.nodes = tree.nodes.map unannotated
  | constant _ => rfl
  | property _ _ _ => rfl
  | wildcard _ _ => rfl
  | .variable _ _ => rfl
  | substitution _ _ => rfl
  | prior _ _ _ => rfl
  | subquery _ _ => rfl
  | aggregation _ _ _ => rfl
  | table node keys type => by
      rw [unannotated, nodes, nodes, nodesOfAll_unannotatedAll keys, List.map_cons, unannotated]
  | declared name body => by
      rw [unannotated, nodes, nodes, nodes_unannotated body, List.map_cons, unannotated]
  | script called arguments => by
      rw [unannotated, nodes, nodes, nodesOfAll_unannotatedAll arguments, List.map_cons,
        unannotated]
  | math operator left right position type => by
      rw [unannotated, nodes, nodes, nodes_unannotated left, nodes_unannotated right,
        List.map_cons, List.map_append, unannotated]
  | compare operator left right position => by
      rw [unannotated, nodes, nodes, nodes_unannotated left, nodes_unannotated right,
        List.map_cons, List.map_append, unannotated]
  | and left right => by
      rw [unannotated, nodes, nodes, nodes_unannotated left, nodes_unannotated right,
        List.map_cons, List.map_append, unannotated]
  | or left right => by
      rw [unannotated, nodes, nodes, nodes_unannotated left, nodes_unannotated right,
        List.map_cons, List.map_append, unannotated]
  | not inner => by
      rw [unannotated, nodes, nodes, nodes_unannotated inner, List.map_cons, unannotated]

theorem nodesOfAll_unannotatedAll : (trees : List Resolved) →
    nodesOfAll (unannotatedAll trees) = (nodesOfAll trees).map unannotated
  | [] => rfl
  | tree :: trees => by
      rw [unannotatedAll, nodesOfAll, nodesOfAll, nodes_unannotated tree,
        nodesOfAll_unannotatedAll trees, List.map_append]

end

theorem aggregation_of_unannotated {node : Resolved} {site : Nat} {position : Option Position}
    {result : Option ResultType}
    (same : node.unannotated = aggregation site position result) :
    ∃ earlier, node = aggregation site position earlier := by
  cases node <;> cases same
  exact ⟨_, rfl⟩

theorem Covered.of_unannotated {tree other : Resolved} (covered : Covered handlers tree.nodes)
    (same : other.unannotated = tree.unannotated) : Covered handlers other.nodes := by
  intro site position result member
  have among : aggregation site position none ∈ tree.nodes.map unannotated := by
    rw [← nodes_unannotated, ← same, nodes_unannotated]
    exact List.mem_map.mpr ⟨_, member, rfl⟩
  obtain ⟨node, inside, isCall⟩ := List.mem_map.mp among
  obtain ⟨earlier, rfl⟩ := aggregation_of_unannotated isCall
  exact covered site position earlier inside

theorem typed_of_unannotated {tree other : Resolved} (covered : Covered handlers tree.nodes)
    (same : other.unannotated = tree.unannotated) :
    typed handlers other = typed handlers tree := by
  rw [← typed_unannotated other (covered.of_unannotated same), same,
    typed_unannotated tree covered]

theorem hasType_nodes {tree tree' : Resolved} (covered : Covered handlers tree.nodes)
    (run : typed handlers tree = .ok tree') :
    List.Forall₂ (fun before after => HasType handlers before after.valueType)
      tree.nodes tree'.nodes := by
  have coveredParts : ∀ node ∈ tree.nodes, Covered handlers node.nodes := by
    intro node member
    exact covered.of_subset (nodes_subset_of_mem tree member)
  have parts := (List.forall₂_and_left _ _).mpr ⟨coveredParts, nodes_of_typed tree run⟩
  apply parts.imp
  intro before after part
  exact hasType_of_typed before part.1 part.2

/-- For a tree whose calls all have handlers, typing succeeds exactly with the type that the rules
give. It fills in the types by the rules and nothing else, and doing it again changes nothing. It
comes to the same for every tree that differs in its annotations alone. -/
theorem typed_decides {tree : Resolved} (covered : Covered handlers tree.nodes) :
    (∀ type, (∃ tree', typed handlers tree = .ok tree' ∧ tree'.valueType = type) ↔
      HasType handlers tree type) ∧
    (∀ tree', typed handlers tree = .ok tree' →
      tree'.unannotated = tree.unannotated ∧
      List.Forall₂ (fun before after => HasType handlers before after.valueType)
        tree.nodes tree'.nodes ∧
      typed handlers tree' = .ok tree') ∧
    ∀ other, other.unannotated = tree.unannotated →
      typed handlers other = typed handlers tree := by
  refine ⟨?_, ?_, fun other same => typed_of_unannotated covered same⟩
  · intro type
    constructor
    · intro result
      obtain ⟨tree', run, rfl⟩ := result
      exact hasType_of_typed tree covered run
    · exact HasType.typed
  · intro tree' run
    have same := unannotated_of_typed tree run
    exact ⟨same, hasType_nodes covered run, (typed_of_unannotated covered same).trans run⟩

private def average : Handler := ⟨.scalar .double, .tally, .tally, ⟨"average", ""⟩⟩

/-- A sum that was typed when its call was one of texts. -/
private def outdated : Resolved :=
  math .add (aggregation 0 none (some (.scalar .string))) (constant (.int 1)) none .object

/-- The old types are gone, and the sum has the wider type of the two numbers. -/
theorem typed_decides_outdated : Covered [average] outdated.nodes ∧
    ∃ tree, typed [average] outdated = .ok tree ∧ tree.valueType = .double ∧
      typed [average] tree = .ok tree := by
  have covered : Covered [average] outdated.nodes := by
    intro site position result member
    simp only [outdated, nodes, List.mem_cons, List.mem_append, List.not_mem_nil, reduceCtorEq,
      aggregation.injEq, false_or, or_false] at member
    rw [member.1]
    decide
  have right : HasType [average] outdated .double :=
    .math (.aggregation rfl) (.constant _) (.left (.trans .long (.trans .float .double)))
  obtain ⟨decides, fills, _⟩ := typed_decides covered
  obtain ⟨tree, run, type⟩ := (decides .double).mpr right
  exact ⟨covered, tree, run, type, (fills tree run).2.2⟩

end EventQuery.Resolved
