import EventQuery.Proofs.Specification.Keys

set_option autoImplicit false

/-! The typing rules. They say what type a tree has without regard to the types that stand in it
already. Where every aggregation call has a handler, typing succeeds exactly by these rules. -/

namespace EventQuery

namespace AttributeType

inductive Numeric : AttributeType → Prop
  | int : Numeric .int
  | long : Numeric .long
  | float : Numeric .float
  | double : Numeric .double

/-- The second of two numeric types is the first or a wider one. -/
inductive Widens : AttributeType → AttributeType → Prop
  | same {type : AttributeType} : Numeric type → Widens type type
  | long : Widens .int .long
  | float : Widens .long .float
  | double : Widens .float .double
  | trans {narrow between wide : AttributeType} :
      Widens narrow between → Widens between wide → Widens narrow wide

inductive Arithmetic : AttributeType → AttributeType → AttributeType → Prop
  | left {left right : AttributeType} : Widens right left → Arithmetic left right left
  | right {left right : AttributeType} : Widens left right → Arithmetic left right right
  | objectLeft {right : AttributeType} : Numeric right → Arithmetic .object right right
  | objectRight {left : AttributeType} : Numeric left → Arithmetic left .object left
  | objects : Arithmetic .object .object .object

inductive Comparable : AttributeType → AttributeType → Prop
  | same (type : AttributeType) : Comparable type type
  | numbers {left right : AttributeType} : Numeric left → Numeric right → Comparable left right
  | objectLeft (right : AttributeType) : Comparable .object right
  | objectRight (left : AttributeType) : Comparable left .object

inductive Condition : AttributeType → Prop
  | bool : Condition .bool
  | object : Condition .object

variable {left right type narrow wide : AttributeType}

theorem numeric_iff : Numeric type ↔ type.isNumeric = true := by
  constructor
  · intro numeric
    cases numeric <;> rfl
  · intro ranked
    cases type with
    | int => exact .int
    | long => exact .long
    | float => exact .float
    | double => exact .double
    | _ => cases ranked

theorem condition_iff : Condition type ↔ type.isCondition = true := by
  constructor
  · intro condition
    cases condition <;> rfl
  · intro truth
    cases type with
    | bool => exact .bool
    | object => exact .object
    | _ => cases truth

theorem comparable_iff : Comparable left right ↔ left.comparable right = true := by
  unfold comparable
  simp only [Bool.or_eq_true, Bool.and_eq_true, decide_eq_true_eq, ← numeric_iff]
  constructor
  · intro comparable
    cases comparable with
    | same => exact .inl (.inl (.inl rfl))
    | numbers leftNumeric rightNumeric => exact .inl (.inl (.inr ⟨leftNumeric, rightNumeric⟩))
    | objectLeft => exact .inl (.inr rfl)
    | objectRight => exact .inr rfl
  · intro cases
    rcases cases with ((same | numbers) | isObject) | isObject
    · subst same
      exact .same _
    · exact .numbers numbers.1 numbers.2
    · subst isObject
      exact .objectLeft _
    · subst isObject
      exact .objectRight _

theorem Widens.ranks (widens : Widens narrow wide) :
    ∃ low high, narrow.numericRank = some low ∧ wide.numericRank = some high ∧ low ≤ high := by
  induction widens with
  | same numeric =>
      obtain ⟨rank, ranked⟩ := Option.isSome_iff_exists.mp (numeric_iff.mp numeric)
      exact ⟨rank, rank, ranked, ranked, Nat.le_refl rank⟩
  | long => exact ⟨0, 1, rfl, rfl, by decide⟩
  | float => exact ⟨1, 2, rfl, rfl, by decide⟩
  | double => exact ⟨2, 3, rfl, rfl, by decide⟩
  | trans _ _ first second =>
      obtain ⟨low, between, lowest, middle, below⟩ := first
      obtain ⟨between', high, middle', highest, above⟩ := second
      cases middle.symm.trans middle'
      exact ⟨low, high, lowest, highest, Nat.le_trans below above⟩

theorem widens_of_ranks {low high : Nat} (lowest : narrow.numericRank = some low)
    (highest : wide.numericRank = some high) (below : low ≤ high) : Widens narrow wide := by
  have longToDouble : Widens .long .double := .trans .float .double
  cases narrow <;> cases lowest <;> cases wide <;> cases highest <;>
    first
    | exact absurd below (by decide)
    | exact .same .int
    | exact .same .long
    | exact .same .float
    | exact .same .double
    | exact .long
    | exact .float
    | exact .double
    | exact .trans .long .float
    | exact longToDouble
    | exact .trans .long longToDouble

theorem numericRank_injective {rank : Nat} (first : left.numericRank = some rank)
    (second : right.numericRank = some rank) : left = right := by
  cases left <;> cases first <;> cases right <;> cases second <;> rfl

theorem widen_eq_some_iff :
    left.widen right = some type ↔
      Widens right left ∧ type = left ∨ Widens left right ∧ type = right := by
  constructor
  · intro wider
    unfold widen at wider
    split at wider
    · rename_i leftRank rightRank leftRanked rightRanked
      by_cases below : rightRank ≤ leftRank
      · rw [if_pos below] at wider
        exact .inl ⟨widens_of_ranks rightRanked leftRanked below, (Option.some.inj wider).symm⟩
      · rw [if_neg below] at wider
        exact .inr ⟨widens_of_ranks leftRanked rightRanked (Nat.le_of_not_le below),
          (Option.some.inj wider).symm⟩
    · cases wider
  · intro wider
    unfold widen
    rcases wider with onLeft | onRight
    · obtain ⟨widens, rfl⟩ := onLeft
      obtain ⟨low, high, lowest, highest, below⟩ := widens.ranks
      rw [lowest, highest]
      exact congrArg some (if_pos below)
    · obtain ⟨widens, rfl⟩ := onRight
      obtain ⟨low, high, lowest, highest, below⟩ := widens.ranks
      rw [lowest, highest]
      dsimp only
      by_cases above : high ≤ low
      · have equal : low = high := Nat.le_antisymm below above
        subst equal
        rw [if_pos above, numericRank_injective lowest highest]
      · rw [if_neg above]

theorem Widens.numeric (widens : Widens narrow wide) : Numeric narrow ∧ Numeric wide := by
  obtain ⟨low, high, lowest, highest, _⟩ := widens.ranks
  simp only [numeric_iff, isNumeric, lowest, highest, Option.isSome_some, and_self]

theorem arithmetic?_of_numeric (leftNumeric : Numeric left) (rightNumeric : Numeric right) :
    left.arithmetic? right = left.widen right := by
  cases leftNumeric <;> cases rightNumeric <;> rfl

theorem arithmetic_iff : Arithmetic left right type ↔ left.arithmetic? right = some type := by
  constructor
  · intro arithmetic
    cases arithmetic with
    | left widens =>
        rw [arithmetic?_of_numeric widens.numeric.2 widens.numeric.1, widen_eq_some_iff]
        exact .inl ⟨widens, rfl⟩
    | right widens =>
        rw [arithmetic?_of_numeric widens.numeric.1 widens.numeric.2, widen_eq_some_iff]
        exact .inr ⟨widens, rfl⟩
    | objectLeft numeric => cases numeric <;> rfl
    | objectRight numeric => cases numeric <;> rfl
    | objects => rfl
  · intro typed
    unfold arithmetic? at typed
    split at typed
    · cases typed
      exact .objects
    · obtain ⟨numeric, same⟩ := Option.ite_none_right_eq_some.mp typed
      cases same
      exact .objectLeft (numeric_iff.mpr numeric)
    · obtain ⟨numeric, same⟩ := Option.ite_none_right_eq_some.mp typed
      cases same
      exact .objectRight (numeric_iff.mpr numeric)
    · rcases widen_eq_some_iff.mp typed with onLeft | onRight
      · obtain ⟨widens, rfl⟩ := onLeft
        exact .left widens
      · obtain ⟨widens, rfl⟩ := onRight
        exact .right widens

end AttributeType

namespace Resolved

mutual

/-- The type of a tree. What an aggregation call is annotated with is not looked at, nor what
arithmetic is. -/
inductive HasType (handlers : List Handler) : Resolved → AttributeType → Prop
  | constant (value : Constant) : HasType handlers (constant value) value.type
  | property (stream : Nat) (path : String) (compiled : CompiledProperty) :
      HasType handlers (property stream path compiled) compiled.type
  | wildcard (stream : Nat) (eventType : EventType) :
      HasType handlers (wildcard stream eventType) .object
  | variable (name : String) (type : AttributeType) : HasType handlers (.variable name type) type
  | table {node : TableAccess} {keys : List Resolved} {type : AttributeType}
      {keyTypes : List AttributeType} :
      HasTypes handlers keys keyTypes → HasType handlers (table node keys type) type
  | substitution (slot : Nat) (type : AttributeType) :
      HasType handlers (substitution slot type) type
  | prior (index stream : Nat) (compiled : CompiledProperty) :
      HasType handlers (prior index stream compiled) compiled.type
  | declared {name : String} {body : Resolved} {type : AttributeType} :
      HasType handlers body type → HasType handlers (declared name body) type
  | script {called : Script} {arguments : List Resolved} {argumentTypes : List AttributeType} :
      HasTypes handlers arguments argumentTypes →
      HasType handlers (script called arguments) called.returns
  | aggregation {site : Nat} {position : Option Position} {result : Option ResultType}
      {handler : Handler} :
      handlers[site]? = some handler →
      HasType handlers (aggregation site position result) handler.resultType.valueType
  | subquery (index : Nat) (type : AttributeType) : HasType handlers (subquery index type) type
  | math {operator : MathOperator} {left right : Resolved} {position : Option Position}
      {annotated leftType rightType type : AttributeType} :
      HasType handlers left leftType → HasType handlers right rightType →
      leftType.Arithmetic rightType type →
      HasType handlers (math operator left right position annotated) type
  | compare {operator : CompareOperator} {left right : Resolved} {position : Option Position}
      {leftType rightType : AttributeType} :
      HasType handlers left leftType → HasType handlers right rightType →
      leftType.Comparable rightType → HasType handlers (compare operator left right position) .bool
  | and {left right : Resolved} {leftType rightType : AttributeType} :
      HasType handlers left leftType → HasType handlers right rightType →
      leftType.Condition → rightType.Condition → HasType handlers (and left right) .bool
  | or {left right : Resolved} {leftType rightType : AttributeType} :
      HasType handlers left leftType → HasType handlers right rightType →
      leftType.Condition → rightType.Condition → HasType handlers (or left right) .bool
  | not {inner : Resolved} {type : AttributeType} :
      HasType handlers inner type → type.Condition → HasType handlers (not inner) .bool

inductive HasTypes (handlers : List Handler) : List Resolved → List AttributeType → Prop
  | nil : HasTypes handlers [] []
  | cons {tree : Resolved} {trees : List Resolved} {type : AttributeType}
      {types : List AttributeType} :
      HasType handlers tree type → HasTypes handlers trees types →
      HasTypes handlers (tree :: trees) (type :: types)

end

/-- Every aggregation call among the trees has a handler. -/
def Covered (handlers : List Handler) (trees : List Resolved) : Prop :=
  ∀ site position result, aggregation site position result ∈ trees → site < handlers.length

variable {handlers : List Handler}

theorem Covered.of_subset {trees others : List Resolved} (covered : Covered handlers trees)
    (inside : others ⊆ trees) : Covered handlers others :=
  fun site position result member => covered site position result (inside member)

theorem Covered.below {tree : Resolved} {trees : List Resolved}
    (covered : Covered handlers (tree :: trees)) : Covered handlers trees :=
  covered.of_subset (List.subset_cons_self tree trees)

theorem covered_append_iff {trees others : List Resolved} :
    Covered handlers (trees ++ others) ↔ Covered handlers trees ∧ Covered handlers others := by
  constructor
  · intro covered
    exact ⟨covered.of_subset (List.subset_append_left _ _),
      covered.of_subset (List.subset_append_right _ _)⟩
  · intro covered site position result member
    rcases List.mem_append.mp member with first | second
    · exact covered.1 site position result first
    · exact covered.2 site position result second

theorem Covered.handler {site : Nat} {position : Option Position} {result : Option ResultType}
    {trees : List Resolved} (covered : Covered handlers trees)
    (member : aggregation site position result ∈ trees) :
    ∃ handler, handlers[site]? = some handler :=
  ⟨_, List.getElem?_eq_getElem (covered site position result member)⟩

mutual

/-- What typing gives is right by the rules. -/
theorem hasType_of_typed : (tree : Resolved) → {tree' : Resolved} →
    Covered handlers tree.nodes → typed handlers tree = .ok tree' →
      HasType handlers tree tree'.valueType
  | constant value, _, _, run => by cases run; exact .constant value
  | property stream path compiled, _, _, run => by cases run; exact .property stream path compiled
  | wildcard stream type, _, _, run => by cases run; exact .wildcard stream type
  | .variable name type, _, _, run => by cases run; exact .variable name type
  | substitution slot type, _, _, run => by cases run; exact .substitution slot type
  | prior index stream compiled, _, _, run => by cases run; exact .prior index stream compiled
  | subquery index type, _, _, run => by cases run; exact .subquery index type
  | aggregation site position result, _, covered, run => by
      obtain ⟨handler, found⟩ := covered.handler List.mem_cons_self
      unfold typed at run
      rw [found] at run
      cases run
      exact .aggregation found
  | table node keys type, _, covered, run => by
      obtain ⟨keys', typedKeys, rfl⟩ := typed_table_iff.mp run
      exact .table (hasTypes_of_typedAll keys covered.below typedKeys)
  | declared name body, _, covered, run => by
      obtain ⟨body', typedBody, rfl⟩ := typed_declared_iff.mp run
      have bodyTyped := hasType_of_typed body covered.below typedBody
      exact .declared bodyTyped
  | script called arguments, _, covered, run => by
      obtain ⟨arguments', typedArguments, rfl⟩ := typed_script_iff.mp run
      exact .script (hasTypes_of_typedAll arguments covered.below typedArguments)
  | math operator left right position type, _, covered, run => by
      obtain ⟨left', right', type', typedLeft, typedRight, found, rfl⟩ := typed_math_iff.mp run
      obtain ⟨coveredLeft, coveredRight⟩ := covered_append_iff.mp covered.below
      exact .math (hasType_of_typed left coveredLeft typedLeft)
        (hasType_of_typed right coveredRight typedRight) (AttributeType.arithmetic_iff.mpr found)
  | compare operator left right position, _, covered, run => by
      obtain ⟨left', right', typedLeft, typedRight, comparable, rfl⟩ := typed_compare_iff.mp run
      obtain ⟨coveredLeft, coveredRight⟩ := covered_append_iff.mp covered.below
      exact .compare (hasType_of_typed left coveredLeft typedLeft)
        (hasType_of_typed right coveredRight typedRight)
        (AttributeType.comparable_iff.mpr comparable)
  | and left right, _, covered, run => by
      obtain ⟨left', right', typedLeft, typedRight, leftTruth, rightTruth, rfl⟩ :=
        typed_and_iff.mp run
      obtain ⟨coveredLeft, coveredRight⟩ := covered_append_iff.mp covered.below
      exact .and (hasType_of_typed left coveredLeft typedLeft)
        (hasType_of_typed right coveredRight typedRight)
        (AttributeType.condition_iff.mpr leftTruth) (AttributeType.condition_iff.mpr rightTruth)
  | or left right, _, covered, run => by
      obtain ⟨left', right', typedLeft, typedRight, leftTruth, rightTruth, rfl⟩ :=
        typed_or_iff.mp run
      obtain ⟨coveredLeft, coveredRight⟩ := covered_append_iff.mp covered.below
      exact .or (hasType_of_typed left coveredLeft typedLeft)
        (hasType_of_typed right coveredRight typedRight)
        (AttributeType.condition_iff.mpr leftTruth) (AttributeType.condition_iff.mpr rightTruth)
  | not inner, _, covered, run => by
      obtain ⟨inner', typedInner, truth, rfl⟩ := typed_not_iff.mp run
      exact .not (hasType_of_typed inner covered.below typedInner)
        (AttributeType.condition_iff.mpr truth)

theorem hasTypes_of_typedAll : (trees : List Resolved) → {trees' : List Resolved} →
    Covered handlers (nodesOfAll trees) → typedAll handlers trees = .ok trees' →
      HasTypes handlers trees (trees'.map valueType)
  | [], _, _, run => by cases run; exact .nil
  | tree :: trees, _, covered, run => by
      obtain ⟨tree', trees', head, tail, rfl⟩ := typedAll_cons_iff.mp run
      obtain ⟨coveredHead, coveredTail⟩ := covered_append_iff.mp covered
      exact .cons (hasType_of_typed tree coveredHead head)
        (hasTypes_of_typedAll trees coveredTail tail)

end

mutual

/-- What is right by the rules is what typing gives. -/
theorem HasType.typed {tree : Resolved} {type : AttributeType} :
    HasType handlers tree type → ∃ tree', typed handlers tree = .ok tree' ∧ tree'.valueType = type
  | .constant value => ⟨_, rfl, rfl⟩
  | .property stream path compiled => ⟨_, rfl, rfl⟩
  | .wildcard stream eventType => ⟨_, rfl, rfl⟩
  | .variable name type => ⟨_, rfl, rfl⟩
  | .substitution slot type => ⟨_, rfl, rfl⟩
  | .prior index stream compiled => ⟨_, rfl, rfl⟩
  | .subquery index type => ⟨_, rfl, rfl⟩
  | .aggregation found => by
      rw [Resolved.typed, found]
      exact ⟨_, rfl, rfl⟩
  | .table keys => by
      obtain ⟨keys', typedKeys⟩ := keys.typedAll
      exact ⟨_, typed_table_iff.mpr ⟨keys', typedKeys, rfl⟩, rfl⟩
  | .declared body => by
      obtain ⟨body', typedBody, same⟩ := body.typed
      exact ⟨_, typed_declared_iff.mpr ⟨body', typedBody, rfl⟩, same⟩
  | .script arguments => by
      obtain ⟨arguments', typedArguments⟩ := arguments.typedAll
      exact ⟨_, typed_script_iff.mpr ⟨arguments', typedArguments, rfl⟩, rfl⟩
  | .math left right arithmetic => by
      obtain ⟨left', typedLeft, rfl⟩ := left.typed
      obtain ⟨right', typedRight, rfl⟩ := right.typed
      have found := AttributeType.arithmetic_iff.mp arithmetic
      exact ⟨_, typed_math_iff.mpr ⟨left', right', _, typedLeft, typedRight, found, rfl⟩, rfl⟩
  | .compare left right comparable => by
      obtain ⟨left', typedLeft, rfl⟩ := left.typed
      obtain ⟨right', typedRight, rfl⟩ := right.typed
      have found := AttributeType.comparable_iff.mp comparable
      exact ⟨_, typed_compare_iff.mpr ⟨left', right', typedLeft, typedRight, found, rfl⟩, rfl⟩
  | .and left right leftTruth rightTruth => by
      obtain ⟨left', typedLeft, rfl⟩ := left.typed
      obtain ⟨right', typedRight, rfl⟩ := right.typed
      exact ⟨_, typed_and_iff.mpr ⟨left', right', typedLeft, typedRight,
        AttributeType.condition_iff.mp leftTruth, AttributeType.condition_iff.mp rightTruth, rfl⟩,
        rfl⟩
  | .or left right leftTruth rightTruth => by
      obtain ⟨left', typedLeft, rfl⟩ := left.typed
      obtain ⟨right', typedRight, rfl⟩ := right.typed
      exact ⟨_, typed_or_iff.mpr ⟨left', right', typedLeft, typedRight,
        AttributeType.condition_iff.mp leftTruth, AttributeType.condition_iff.mp rightTruth, rfl⟩,
        rfl⟩
  | .not inner truth => by
      obtain ⟨inner', typedInner, rfl⟩ := inner.typed
      exact ⟨_, typed_not_iff.mpr ⟨inner', typedInner, AttributeType.condition_iff.mp truth, rfl⟩,
        rfl⟩

theorem HasTypes.typedAll {trees : List Resolved} {types : List AttributeType} :
    HasTypes handlers trees types → ∃ trees', typedAll handlers trees = .ok trees'
  | .nil => ⟨[], rfl⟩
  | .cons head tail => by
      obtain ⟨tree', typedHead, _⟩ := head.typed
      obtain ⟨trees', typedTail⟩ := tail.typedAll
      exact ⟨_, typedAll_cons_iff.mpr ⟨tree', trees', typedHead, typedTail, rfl⟩⟩

end

end Resolved

end EventQuery
