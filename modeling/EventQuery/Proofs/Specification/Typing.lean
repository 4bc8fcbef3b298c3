import EventQuery.Proofs.Checked
import EventQuery.Resolved.Typing
import Mathlib.Data.List.Forall2

set_option autoImplicit false

/-! What typing does to a tree. Every tree in a typed tree is a typed tree, and the type of a tree
rests on the aggregation calls that stand where its type comes from: typed before the handlers of
these calls are known, it is comparable to too much exactly because of them. -/

namespace EventQuery

namespace AttributeType

variable {left right type column : AttributeType}

private theorem arithmetic?_cases (typed : left.arithmetic? right = some type) :
    (left = .object ∧ right = .object ∧ type = .object) ∨
      (left.isNumeric = true ∨ left = .object) ∧ (right.isNumeric = true ∨ right = .object) ∧
        (left.isNumeric = true ∨ right.isNumeric = true) ∧ type.isNumeric = true := by
  cases left <;> cases right <;> cases typed <;> simp [isNumeric, numericRank]

private theorem comparable_iff_of_numeric (numeric : type.isNumeric = true) :
    type.comparable column = true ↔ column.isNumeric = true ∨ column = .object := by
  cases type <;> cases column <;> simp_all [comparable, isNumeric, numericRank]

private theorem comparable_object : object.comparable column = true := by
  simp [comparable]

/-- Arithmetic is comparable to what both of its operands are comparable to. -/
theorem comparable_arithmetic_iff (typed : left.arithmetic? right = some type) :
    type.comparable column = true ↔
      left.comparable column = true ∧ right.comparable column = true := by
  rcases arithmetic?_cases typed with ⟨rfl, rfl, rfl⟩ | ⟨leftKind, rightKind, some, wide⟩
  · simp [comparable_object]
  · rw [comparable_iff_of_numeric wide]
    rcases leftKind with leftNumeric | rfl
    · rw [comparable_iff_of_numeric leftNumeric]
      rcases rightKind with rightNumeric | rfl
      · rw [comparable_iff_of_numeric rightNumeric, and_self]
      · simp [comparable_object]
    · have rightNumeric := some.resolve_left (by decide)
      simp [comparable_object, comparable_iff_of_numeric rightNumeric]

end AttributeType

namespace Resolved

variable {handlers : List Handler}

attribute [simp] nodes nodesOfAll typed typedAll

theorem typed_declared_iff {name : String} {body tree : Resolved} :
    typed handlers (declared name body) = .ok tree ↔
      ∃ body', typed handlers body = .ok body' ∧ tree = declared name body' := by
  simp only [typed, Checked.bind_eq_ok_iff, Checked.pure_eq_ok_iff]

theorem typed_table_iff {node : TableAccess} {keys : List Resolved} {type : AttributeType}
    {tree : Resolved} :
    typed handlers (table node keys type) = .ok tree ↔
      ∃ keys', typedAll handlers keys = .ok keys' ∧ tree = table node keys' type := by
  simp only [typed, Checked.bind_eq_ok_iff, Checked.pure_eq_ok_iff]

theorem typed_math_iff {operator : MathOperator} {left right tree : Resolved}
    {position : Option Position} {type : AttributeType} :
    typed handlers (math operator left right position type) = .ok tree ↔
      ∃ left' right' type', typed handlers left = .ok left' ∧ typed handlers right = .ok right' ∧
        left'.valueType.arithmetic? right'.valueType = some type' ∧
        tree = math operator left' right' position type' := by
  simp only [typed, Checked.bind_eq_ok_iff]
  constructor
  · rintro ⟨left', typedLeft, right', typedRight, rest⟩
    split at rest
    · rename_i type' found
      exact ⟨left', right', type', typedLeft, typedRight, found, Checked.pure_eq_ok_iff.mp rest⟩
    · cases rest
  · rintro ⟨left', right', type', typedLeft, typedRight, found, rfl⟩
    refine ⟨left', typedLeft, right', typedRight, ?_⟩
    rw [found]
    rfl

theorem typed_script_iff {called : Script} {arguments : List Resolved} {tree : Resolved} :
    typed handlers (script called arguments) = .ok tree ↔
      ∃ arguments', typedAll handlers arguments = .ok arguments' ∧
        tree = script called arguments' := by
  simp only [typed, Checked.bind_eq_ok_iff, Checked.pure_eq_ok_iff]

theorem typed_compare_iff {operator : CompareOperator} {left right tree : Resolved}
    {position : Option Position} :
    typed handlers (compare operator left right position) = .ok tree ↔
      ∃ left' right', typed handlers left = .ok left' ∧ typed handlers right = .ok right' ∧
        left'.valueType.comparable right'.valueType = true ∧
        tree = compare operator left' right' position := by
  simp only [typed, Checked.bind_eq_ok_iff]
  constructor
  · rintro ⟨left', typedLeft, right', typedRight, rest⟩
    split at rest
    · rename_i comparable
      exact ⟨left', right', typedLeft, typedRight, comparable, Checked.pure_eq_ok_iff.mp rest⟩
    · cases rest
  · rintro ⟨left', right', typedLeft, typedRight, comparable, rfl⟩
    refine ⟨left', typedLeft, right', typedRight, ?_⟩
    rw [if_pos comparable]
    rfl

theorem checkOperand_ok_iff {operator : String} {operand : Resolved} {checked : Unit} :
    checkOperand operator operand = .ok checked ↔ operand.valueType.isCondition = true := by
  unfold checkOperand
  split <;> simp_all

theorem typed_and_iff {left right tree : Resolved} :
    typed handlers (and left right) = .ok tree ↔
      ∃ left' right', typed handlers left = .ok left' ∧ typed handlers right = .ok right' ∧
        left'.valueType.isCondition = true ∧ right'.valueType.isCondition = true ∧
        tree = and left' right' := by
  simp only [typed, Checked.bind_eq_ok_iff, Checked.pure_eq_ok_iff, checkOperand_ok_iff]
  constructor
  · rintro ⟨left', typedLeft, _, leftTruth, right', typedRight, _, rightTruth, rfl⟩
    exact ⟨left', right', typedLeft, typedRight, leftTruth, rightTruth, rfl⟩
  · rintro ⟨left', right', typedLeft, typedRight, leftTruth, rightTruth, rfl⟩
    exact ⟨left', typedLeft, (), leftTruth, right', typedRight, (), rightTruth, rfl⟩

theorem typed_or_iff {left right tree : Resolved} :
    typed handlers (or left right) = .ok tree ↔
      ∃ left' right', typed handlers left = .ok left' ∧ typed handlers right = .ok right' ∧
        left'.valueType.isCondition = true ∧ right'.valueType.isCondition = true ∧
        tree = or left' right' := by
  simp only [typed, Checked.bind_eq_ok_iff, Checked.pure_eq_ok_iff, checkOperand_ok_iff]
  constructor
  · rintro ⟨left', typedLeft, _, leftTruth, right', typedRight, _, rightTruth, rfl⟩
    exact ⟨left', right', typedLeft, typedRight, leftTruth, rightTruth, rfl⟩
  · rintro ⟨left', right', typedLeft, typedRight, leftTruth, rightTruth, rfl⟩
    exact ⟨left', typedLeft, (), leftTruth, right', typedRight, (), rightTruth, rfl⟩

theorem typed_not_iff {inner tree : Resolved} :
    typed handlers (not inner) = .ok tree ↔
      ∃ inner', typed handlers inner = .ok inner' ∧ inner'.valueType.isCondition = true ∧
        tree = not inner' := by
  simp only [typed, Checked.bind_eq_ok_iff, Checked.pure_eq_ok_iff, checkOperand_ok_iff]
  constructor
  · rintro ⟨inner', typedInner, _, truth, rfl⟩
    exact ⟨inner', typedInner, truth, rfl⟩
  · rintro ⟨inner', typedInner, truth, rfl⟩
    exact ⟨inner', typedInner, (), truth, rfl⟩

theorem typedAll_cons_iff {tree : Resolved} {trees results : List Resolved} :
    typedAll handlers (tree :: trees) = .ok results ↔
      ∃ tree' trees', typed handlers tree = .ok tree' ∧ typedAll handlers trees = .ok trees' ∧
        results = tree' :: trees' := by
  simp only [typedAll, Checked.bind_eq_ok_iff, Checked.pure_eq_ok_iff]
  constructor
  · rintro ⟨tree', head, trees', tail, rfl⟩
    exact ⟨tree', trees', head, tail, rfl⟩
  · rintro ⟨tree', trees', head, tail, rfl⟩
    exact ⟨tree', head, trees', tail, rfl⟩

/-- The second tree is what the first one becomes. -/
def Becomes (handlers : List Handler) (tree tree' : Resolved) : Prop :=
  typed handlers tree = .ok tree'

mutual

theorem nodes_of_typed :
    (tree : Resolved) → {tree' : Resolved} → typed handlers tree = .ok tree' →
      List.Forall₂ (Becomes handlers) tree.nodes tree'.nodes
  | constant _, _, run => by cases run; exact .cons rfl .nil
  | property _ _ _, _, run => by cases run; exact .cons rfl .nil
  | wildcard _ _, _, run => by cases run; exact .cons rfl .nil
  | .variable _ _, _, run => by cases run; exact .cons rfl .nil
  | substitution _ _, _, run => by cases run; exact .cons rfl .nil
  | prior _ _ _, _, run => by cases run; exact .cons rfl .nil
  | subquery _ _, _, run => by cases run; exact .cons rfl .nil
  | aggregation site position result, _, run => by
      have becomes : Becomes handlers _ _ := run
      unfold typed at run
      split at run
      · cases run
        exact .cons becomes .nil
      · cases run
        exact .cons becomes .nil
  | table node keys type, _, run => by
      obtain ⟨keys', typedKeys, rfl⟩ := typed_table_iff.mp run
      exact .cons run (nodesOfAll_of_typedAll keys typedKeys)
  | declared name body, _, run => by
      obtain ⟨body', typedBody, rfl⟩ := typed_declared_iff.mp run
      exact .cons run (nodes_of_typed body typedBody)
  | script called arguments, _, run => by
      obtain ⟨arguments', typedArguments, rfl⟩ := typed_script_iff.mp run
      exact .cons run (nodesOfAll_of_typedAll arguments typedArguments)
  | math operator left right position type, _, run => by
      obtain ⟨left', right', type', typedLeft, typedRight, _, rfl⟩ := typed_math_iff.mp run
      exact .cons run
        (List.rel_append (nodes_of_typed left typedLeft) (nodes_of_typed right typedRight))
  | compare operator left right position, _, run => by
      obtain ⟨left', right', typedLeft, typedRight, _, rfl⟩ := typed_compare_iff.mp run
      exact .cons run
        (List.rel_append (nodes_of_typed left typedLeft) (nodes_of_typed right typedRight))
  | and left right, _, run => by
      obtain ⟨left', right', typedLeft, typedRight, _, _, rfl⟩ := typed_and_iff.mp run
      exact .cons run
        (List.rel_append (nodes_of_typed left typedLeft) (nodes_of_typed right typedRight))
  | or left right, _, run => by
      obtain ⟨left', right', typedLeft, typedRight, _, _, rfl⟩ := typed_or_iff.mp run
      exact .cons run
        (List.rel_append (nodes_of_typed left typedLeft) (nodes_of_typed right typedRight))
  | not inner, _, run => by
      obtain ⟨inner', typedInner, _, rfl⟩ := typed_not_iff.mp run
      exact .cons run (nodes_of_typed inner typedInner)

theorem nodesOfAll_of_typedAll :
    (trees : List Resolved) → {trees' : List Resolved} → typedAll handlers trees = .ok trees' →
      List.Forall₂ (Becomes handlers) (nodesOfAll trees) (nodesOfAll trees')
  | [], _, run => by cases run; exact .nil
  | tree :: trees, _, run => by
      obtain ⟨tree', trees', head, tail, rfl⟩ := typedAll_cons_iff.mp run
      exact List.rel_append (nodes_of_typed tree head) (nodesOfAll_of_typedAll trees tail)

end

private theorem exists_origin {origins results : List Resolved} {node : Resolved}
    (each : List.Forall₂ (Becomes handlers) origins results) (member : node ∈ results) :
    ∃ origin ∈ origins, typed handlers origin = .ok node := by
  induction each with
  | nil => cases member
  | cons head _ ih =>
      rcases List.mem_cons.mp member with rfl | later
      · exact ⟨_, List.mem_cons_self, head⟩
      · obtain ⟨origin, inside, becomes⟩ := ih later
        exact ⟨origin, List.mem_cons_of_mem _ inside, becomes⟩

theorem mem_nodes_of_typed (tree : Resolved) {tree' node : Resolved}
    (run : typed handlers tree = .ok tree') (member : node ∈ tree'.nodes) :
    ∃ origin ∈ tree.nodes, typed handlers origin = .ok node :=
  exists_origin (nodes_of_typed tree run) member

theorem mem_nodesOfAll_of_typedAll (trees : List Resolved) {trees' : List Resolved}
    {node : Resolved} (run : typedAll handlers trees = .ok trees')
    (member : node ∈ nodesOfAll trees') :
    ∃ origin ∈ nodesOfAll trees, typed handlers origin = .ok node :=
  exists_origin (nodesOfAll_of_typedAll trees run) member

/-! ### Where the type of a tree comes from -/

/-- The types of the aggregation calls that the type of a tree rests on: of the call that the tree
is, or of those among the operands of arithmetic. -/
def callTypes : Resolved → List AttributeType
  | aggregation site position result => [(aggregation site position result).valueType]
  | declared _ body => body.callTypes
  | math _ left right _ _ => left.callTypes ++ right.callTypes
  | _ => []

/-- Where the type of a tree comes from arithmetic, it is the type that its operands give. -/
def Consistent : Resolved → Prop
  | declared _ body => body.Consistent
  | math _ left right _ type =>
      left.valueType.arithmetic? right.valueType = some type ∧ left.Consistent ∧ right.Consistent
  | _ => True

/-- No aggregation call in the tree has a result type yet. -/
def Unanswered (tree : Resolved) : Prop :=
  ∀ site position result, aggregation site position result ∈ tree.nodes → result = none

theorem Unanswered.of_subset {tree part : Resolved} (unanswered : tree.Unanswered)
    (inside : part.nodes ⊆ tree.nodes) : part.Unanswered :=
  fun site position result member => unanswered site position result (inside member)

theorem nodes_declared_subset {name : String} {body : Resolved} :
    body.nodes ⊆ (declared name body).nodes :=
  fun _ member => List.mem_cons_of_mem _ member

theorem nodes_left_subset {operator : MathOperator} {left right : Resolved}
    {position : Option Position} {type : AttributeType} :
    left.nodes ⊆ (math operator left right position type).nodes :=
  fun _ member => List.mem_cons_of_mem _ (List.mem_append_left _ member)

theorem nodes_right_subset {operator : MathOperator} {left right : Resolved}
    {position : Option Position} {type : AttributeType} :
    right.nodes ⊆ (math operator left right position type).nodes :=
  fun _ member => List.mem_cons_of_mem _ (List.mem_append_right _ member)

/-- The type of the tree is its own: it is neither arithmetic nor an aggregation call, nor a
declared expression that may be one of them. -/
def hasOwnType : Resolved → Bool
  | aggregation _ _ _ => false
  | declared _ _ => false
  | math _ _ _ _ _ => false
  | _ => true

theorem callTypes_of_hasOwnType {tree : Resolved} (own : tree.hasOwnType = true) :
    tree.callTypes = [] := by
  cases tree with
  | aggregation _ _ _ => cases own
  | declared _ _ => cases own
  | math _ _ _ _ _ => cases own
  | _ => rfl

theorem consistent_of_hasOwnType {tree : Resolved} (own : tree.hasOwnType = true) :
    tree.Consistent := by
  cases tree with
  | aggregation _ _ _ => trivial
  | declared _ _ => cases own
  | math _ _ _ _ _ => cases own
  | _ => trivial

theorem typed_of_hasOwnType {tree tree' : Resolved} (own : tree.hasOwnType = true)
    (run : typed handlers tree = .ok tree') :
    tree'.hasOwnType = true ∧ tree'.valueType = tree.valueType := by
  cases tree with
  | aggregation _ _ _ => cases own
  | declared _ _ => cases own
  | math _ _ _ _ _ => cases own
  | table node keys type =>
      obtain ⟨keys', _, rfl⟩ := typed_table_iff.mp run
      exact ⟨rfl, rfl⟩
  | compare operator left right position =>
      obtain ⟨_, _, _, _, _, rfl⟩ := typed_compare_iff.mp run
      exact ⟨rfl, rfl⟩
  | script called arguments =>
      obtain ⟨_, _, rfl⟩ := typed_script_iff.mp run
      exact ⟨rfl, rfl⟩
  | and left right =>
      obtain ⟨_, _, _, _, _, _, rfl⟩ := typed_and_iff.mp run
      exact ⟨rfl, rfl⟩
  | or left right =>
      obtain ⟨_, _, _, _, _, _, rfl⟩ := typed_or_iff.mp run
      exact ⟨rfl, rfl⟩
  | not inner =>
      obtain ⟨_, _, _, rfl⟩ := typed_not_iff.mp run
      exact ⟨rfl, rfl⟩
  | _ =>
      cases run
      exact ⟨rfl, rfl⟩

theorem typed_aggregation {site : Nat} {position : Option Position} {result : Option ResultType}
    {tree : Resolved} (run : typed handlers (aggregation site position result) = .ok tree) :
    ∃ result', tree = aggregation site position result' ∧ (handlers = [] → result' = result) := by
  unfold typed at run
  split at run
  · rename_i handler found
    cases run
    refine ⟨_, rfl, ?_⟩
    rintro rfl
    cases found
  · cases run
    exact ⟨_, rfl, fun _ => rfl⟩

theorem origin_of_typed {tree tree' : Resolved} (run : typed handlers tree = .ok tree') :
    match tree' with
    | wildcard stream type => tree = wildcard stream type
    | aggregation site position result => ∃ earlier, tree = aggregation site position earlier ∧
        (handlers = [] → result = earlier)
    | table node keys type => ∃ earlier, tree = table node earlier type ∧
        typedAll handlers earlier = .ok keys
    | _ => True := by
  cases tree with
  | aggregation site position result =>
      obtain ⟨_, rfl, same⟩ := typed_aggregation run
      exact ⟨_, rfl, same⟩
  | table node keys type =>
      obtain ⟨keys', typedKeys, rfl⟩ := typed_table_iff.mp run
      exact ⟨_, rfl, typedKeys⟩
  | declared name body =>
      obtain ⟨_, _, rfl⟩ := typed_declared_iff.mp run
      trivial
  | math operator left right position type =>
      obtain ⟨_, _, _, _, _, _, rfl⟩ := typed_math_iff.mp run
      trivial
  | compare operator left right position =>
      obtain ⟨_, _, _, _, _, rfl⟩ := typed_compare_iff.mp run
      trivial
  | script called arguments =>
      obtain ⟨_, _, rfl⟩ := typed_script_iff.mp run
      trivial
  | and left right =>
      obtain ⟨_, _, _, _, _, _, rfl⟩ := typed_and_iff.mp run
      trivial
  | or left right =>
      obtain ⟨_, _, _, _, _, _, rfl⟩ := typed_or_iff.mp run
      trivial
  | not inner =>
      obtain ⟨_, _, _, rfl⟩ := typed_not_iff.mp run
      trivial
  | wildcard stream type =>
      cases run
      exact rfl
  | _ =>
      cases run
      trivial

theorem consistent_of_typed (tree : Resolved) {tree' : Resolved}
    (run : typed handlers tree = .ok tree') : tree'.Consistent := by
  cases tree with
  | declared name body =>
      obtain ⟨body', typedBody, rfl⟩ := typed_declared_iff.mp run
      have inner := consistent_of_typed body typedBody
      exact inner
  | math operator left right position type =>
      obtain ⟨left', right', type', typedLeft, typedRight, found, rfl⟩ := typed_math_iff.mp run
      exact ⟨found, consistent_of_typed left typedLeft, consistent_of_typed right typedRight⟩
  | aggregation site position result =>
      obtain ⟨_, rfl, _⟩ := typed_aggregation run
      trivial
  | _ => exact consistent_of_hasOwnType (typed_of_hasOwnType rfl run).1
termination_by structural tree

/-- Without handlers, typing a tree whose types are in place changes no type. -/
theorem valueType_of_typed_nil (tree : Resolved) {tree' : Resolved} (consistent : tree.Consistent)
    (run : typed [] tree = .ok tree') : tree'.valueType = tree.valueType := by
  cases tree with
  | declared name body =>
      obtain ⟨body', typedBody, rfl⟩ := typed_declared_iff.mp run
      have inner := valueType_of_typed_nil body consistent typedBody
      exact inner
  | math operator left right position type =>
      obtain ⟨left', right', type', typedLeft, typedRight, found, rfl⟩ := typed_math_iff.mp run
      obtain ⟨earlier, leftConsistent, rightConsistent⟩ := consistent
      rw [valueType_of_typed_nil left leftConsistent typedLeft,
        valueType_of_typed_nil right rightConsistent typedRight, earlier] at found
      exact (Option.some.inj found).symm
  | aggregation site position result =>
      obtain ⟨_, rfl, same⟩ := typed_aggregation run
      rw [same rfl]
  | _ => exact (typed_of_hasOwnType rfl run).2
termination_by structural tree

/-- A tree that was comparable to a type while no handler was known stays so exactly if every
aggregation call that its type rests on turns out to be comparable to it. -/
theorem comparable_typed_iff (tree : Resolved) {tree' : Resolved} {column : AttributeType}
    (consistent : tree.Consistent) (unanswered : tree.Unanswered)
    (run : typed handlers tree = .ok tree')
    (earlier : tree.valueType.comparable column = true) :
    tree'.valueType.comparable column = true ↔
      ∀ type ∈ tree'.callTypes, type.comparable column = true := by
  cases tree with
  | declared name body =>
      obtain ⟨body', typedBody, rfl⟩ := typed_declared_iff.mp run
      have inner := comparable_typed_iff body consistent
        (unanswered.of_subset nodes_declared_subset) typedBody earlier
      exact inner
  | math operator left right position type =>
      obtain ⟨left', right', type', typedLeft, typedRight, found, rfl⟩ := typed_math_iff.mp run
      obtain ⟨before, leftConsistent, rightConsistent⟩ := consistent
      obtain ⟨leftEarlier, rightEarlier⟩ :=
        (AttributeType.comparable_arithmetic_iff before).mp earlier
      have onLeft := comparable_typed_iff left leftConsistent
        (unanswered.of_subset nodes_left_subset) typedLeft leftEarlier
      have onRight := comparable_typed_iff right rightConsistent
        (unanswered.of_subset nodes_right_subset) typedRight rightEarlier
      calc
        (math operator left' right' position type').valueType.comparable column = true ↔
            left'.valueType.comparable column = true ∧ right'.valueType.comparable column = true :=
          AttributeType.comparable_arithmetic_iff found
        _ ↔ ∀ type ∈ (math operator left' right' position type').callTypes,
              type.comparable column = true := by
          rw [onLeft, onRight, callTypes, List.forall_mem_append]
  | aggregation site position result =>
      obtain ⟨result', rfl, _⟩ := typed_aggregation run
      rw [callTypes, List.forall_mem_singleton]
  | _ =>
      obtain ⟨own, same⟩ := typed_of_hasOwnType rfl run
      rw [same, callTypes_of_hasOwnType own]
      exact iff_of_true earlier (List.forall_mem_nil _)
termination_by structural tree

end Resolved

end EventQuery
