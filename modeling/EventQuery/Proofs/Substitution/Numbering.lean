import EventQuery.Proofs.Nesting.Reflection

set_option autoImplicit false

/-! The numbering of substitution parameters, read off the text. An expression takes slots in the
order in which it is read: its parts from left to right, and for a declared expression first the
arguments of the call, then the body, anew at every call. Where a parameter of the declaration
stands in the body, no slot is taken; its value shows those that its argument took. -/

namespace EventQuery

mutual

/-- An expression and all expressions in it, subqueries not entered, each before those in it. -/
def Expression.nodes : Expression → List Expression
  | .table node => .table node :: node.inner
  | .call node => .call node :: node.inner
  | .math operator left right => .math operator left right :: (left.nodes ++ right.nodes)
  | .compare operator left right => .compare operator left right :: (left.nodes ++ right.nodes)
  | .and left right => .and left right :: (left.nodes ++ right.nodes)
  | .or left right => .or left right :: (left.nodes ++ right.nodes)
  | .not inner => .not inner :: inner.nodes
  | leaf => [leaf]
termination_by structural expression => expression

def TableAccess.inner : TableAccess → List Expression
  | ⟨_, _, _, keys, _⟩ => nodesOfExpressions keys
termination_by structural node => node

def FunctionCall.inner : FunctionCall → List Expression
  | ⟨_, _, _, parameters⟩ => nodesOfExpressions parameters
termination_by structural node => node

def nodesOfExpressions : List Expression → List Expression
  | [] => []
  | expression :: rest => expression.nodes ++ nodesOfExpressions rest
termination_by structural expressions => expressions

end

namespace Expression

variable {expression inner : Expression}

theorem nodes_eq_cons (expression : Expression) :
    expression.nodes = expression :: nodesOfExpressions expression.direct := by
  cases expression with
  | table node => cases node; rfl
  | call node => cases node; rfl
  | math operator left right =>
      simp only [nodes, direct, operands, nodesOfExpressions, List.append_nil]
  | compare operator left right =>
      simp only [nodes, direct, operands, nodesOfExpressions, List.append_nil]
  | and left right => simp only [nodes, direct, operands, nodesOfExpressions, List.append_nil]
  | or left right => simp only [nodes, direct, operands, nodesOfExpressions, List.append_nil]
  | not inner => simp only [nodes, direct, operands, nodesOfExpressions, List.append_nil]
  | _ => rfl

def placeholder? : Expression → Option SubstitutionNode
  | substitution node => some node
  | _ => none

/-- The substitution parameters in an expression, each at each place where it stands, from left
to right. -/
def placeholders (expression : Expression) : List SubstitutionNode :=
  expression.nodes.filterMap placeholder?

end Expression

def placeholdersOfAll (expressions : List Expression) : List SubstitutionNode :=
  (nodesOfExpressions expressions).filterMap Expression.placeholder?

theorem placeholdersOfAll_cons (expression : Expression) (expressions : List Expression) :
    placeholdersOfAll (expression :: expressions) =
      expression.placeholders ++ placeholdersOfAll expressions := by
  simp only [placeholdersOfAll, nodesOfExpressions, List.filterMap_append,
    Expression.placeholders]

theorem Expression.placeholders_of_direct {expression : Expression}
    (other : expression.placeholder? = none) :
    expression.placeholders = placeholdersOfAll expression.direct := by
  unfold placeholders
  rw [nodes_eq_cons, List.filterMap_cons_none other, placeholdersOfAll]

/-- A substitution parameter and the slot that it took. -/
structure Placed where
  slot : Nat
  node : SubstitutionNode

def Recorded (nodes : List SubstitutionNode) (shown : List Placed) : Prop :=
  ∀ placed ∈ shown, nodes[placed.slot]? = some placed.node

theorem Recorded.append {nodes : List SubstitutionNode} {shown : List Placed}
    (recorded : Recorded nodes shown) (later : List SubstitutionNode) :
    Recorded (nodes ++ later) shown := by
  intro placed member
  obtain ⟨inside, _⟩ := List.getElem?_eq_some_iff.mp (recorded placed member)
  rw [List.getElem?_append_left inside]
  exact recorded placed member

namespace Vocabulary

mutual

/-- With a certain slot free next, an expression takes slots for some parameters, and its value
shows some slots. The names of a declaration around it stand for what their arguments show. -/
inductive Numbers (vocabulary : Vocabulary) :
    List (String × List Placed) → Nat → Expression → List SubstitutionNode → List Placed → Prop
  | substitution {bindings next node} :
      Numbers vocabulary bindings next (.substitution node) [node] [⟨next, node⟩]
  | bound {bindings next node shown} :
      node.stream = none → bindings.lookup node.path = some shown →
      Numbers vocabulary bindings next (.property node) [] shown
  | property {bindings next node} :
      (node.stream = none → bindings.lookup node.path = none) →
      Numbers vocabulary bindings next (.property node) [] []
  | parts {bindings next expression nodes shown} :
      vocabulary.Plain expression → expression.placeholder? = none →
      NumbersAll vocabulary bindings next (vocabulary.parts expression) nodes shown →
      Numbers vocabulary bindings next expression nodes shown.flatten
  | declared {bindings next node declaration nodes shown inner value} :
      vocabulary.meaning? node = some (.declared declaration) →
      NumbersAll vocabulary bindings next node.parameters nodes shown →
      Numbers vocabulary (declaration.parameters.zip shown).reverse (next + nodes.length)
        declaration.body inner value →
      Numbers vocabulary bindings next (.call node) (nodes ++ inner) value
  | aggregation {bindings next node nodes shown} :
      vocabulary.meaning? node = some .aggregation →
      NumbersAll vocabulary bindings next node.parameters nodes shown →
      Numbers vocabulary bindings next (.call node) nodes []

inductive NumbersAll (vocabulary : Vocabulary) :
    List (String × List Placed) → Nat → List Expression → List SubstitutionNode →
      List (List Placed) → Prop
  | nil {bindings next} : NumbersAll vocabulary bindings next [] [] []
  | cons {bindings next expression expressions nodes value later shown} :
      Numbers vocabulary bindings next expression nodes value →
      NumbersAll vocabulary bindings (next + nodes.length) expressions later shown →
      NumbersAll vocabulary bindings next (expression :: expressions) (nodes ++ later)
        (value :: shown)

end

mutual

/-- The text leaves no choice. -/
theorem Numbers.unique {vocabulary : Vocabulary} {bindings : List (String × List Placed)}
    {next : Nat} {expression : Expression} {nodes others : List SubstitutionNode}
    {shown otherShown : List Placed} :
    vocabulary.Numbers bindings next expression nodes shown →
      vocabulary.Numbers bindings next expression others otherShown →
        nodes = others ∧ shown = otherShown
  | .substitution, other => by
      cases other with
      | substitution => exact ⟨rfl, rfl⟩
      | parts _ apart _ => cases apart
  | .bound unnamed known, other => by
      cases other with
      | bound _ found =>
          cases known.symm.trans found
          exact ⟨rfl, rfl⟩
      | property unbound => cases known.symm.trans (unbound unnamed)
      | parts plain _ _ => exact plain.elim
  | .property unbound, other => by
      cases other with
      | bound unnamed known => cases known.symm.trans (unbound unnamed)
      | property _ => exact ⟨rfl, rfl⟩
      | parts plain _ _ => exact plain.elim
  | .parts plain apart all, other => by
      cases other with
      | substitution => cases apart
      | bound _ _ => exact plain.elim
      | property _ => exact plain.elim
      | parts _ _ others =>
          obtain ⟨rfl, rfl⟩ := all.unique others
          exact ⟨rfl, rfl⟩
      | declared meaning _ _ => cases meaning.symm.trans plain
      | aggregation meaning _ => cases meaning.symm.trans plain
  | .declared meaning given inner, other => by
      cases other with
      | parts plain _ _ => cases meaning.symm.trans plain
      | declared otherMeaning otherGiven otherInner =>
          cases meaning.symm.trans otherMeaning
          obtain ⟨rfl, rfl⟩ := given.unique otherGiven
          obtain ⟨rfl, rfl⟩ := inner.unique otherInner
          exact ⟨rfl, rfl⟩
      | aggregation otherMeaning _ => cases meaning.symm.trans otherMeaning
  | .aggregation meaning given, other => by
      cases other with
      | parts plain _ _ => cases meaning.symm.trans plain
      | declared otherMeaning _ _ => cases meaning.symm.trans otherMeaning
      | aggregation _ otherGiven => exact ⟨(given.unique otherGiven).1, rfl⟩

theorem NumbersAll.unique {vocabulary : Vocabulary} {bindings : List (String × List Placed)}
    {next : Nat} {expressions : List Expression} {nodes others : List SubstitutionNode}
    {shown otherShown : List (List Placed)} :
    vocabulary.NumbersAll bindings next expressions nodes shown →
      vocabulary.NumbersAll bindings next expressions others otherShown →
        nodes = others ∧ shown = otherShown
  | .nil, .nil => ⟨rfl, rfl⟩
  | .cons first rest, .cons otherFirst otherRest => by
      obtain ⟨rfl, rfl⟩ := first.unique otherFirst
      obtain ⟨rfl, rfl⟩ := rest.unique otherRest
      exact ⟨rfl, rfl⟩

end

private theorem recorded_of_lookup {nodes : List SubstitutionNode}
    {bindings : List (String × List Placed)} {name : String} {shown : List Placed}
    (bound : ∀ entry ∈ bindings, Recorded nodes entry.2)
    (found : bindings.lookup name = some shown) : Recorded nodes shown :=
  bound (name, shown) (Entries.mem_of_lookup found)

private theorem recorded_entering {nodes : List SubstitutionNode} {shown : List (List Placed)}
    (names : List String) (recorded : ∀ value ∈ shown, Recorded nodes value) :
    ∀ entry ∈ (names.zip shown).reverse, Recorded nodes entry.2 :=
  fun entry member => recorded entry.2 (List.of_mem_zip (List.mem_reverse.mp member)).2

mutual

theorem Numbers.recorded {vocabulary : Vocabulary} {bindings : List (String × List Placed)}
    {next : Nat} {expression : Expression} {earlier nodes : List SubstitutionNode}
    {shown : List Placed} :
    vocabulary.Numbers bindings next expression nodes shown → earlier.length = next →
      (∀ entry ∈ bindings, Recorded earlier entry.2) → Recorded (earlier ++ nodes) shown
  | .substitution, count, _ => by
      intro placed member
      rw [List.mem_singleton.mp member, ← count]
      exact List.getElem?_concat_length
  | .bound _ found, _, bound => (recorded_of_lookup bound found).append []
  | .property _, _, _ => List.forall_mem_nil _
  | .parts _ _ all, count, bound => by
      intro placed member
      obtain ⟨value, inside, among⟩ := List.mem_flatten.mp member
      exact all.recorded count bound value inside placed among
  | .declared _ given inner, count, bound => by
      rw [← List.append_assoc]
      refine inner.recorded (by rw [List.length_append, count]) ?_
      exact recorded_entering _ (given.recorded count bound)
  | .aggregation _ _, _, _ => List.forall_mem_nil _

theorem NumbersAll.recorded {vocabulary : Vocabulary} {bindings : List (String × List Placed)}
    {next : Nat} {expressions : List Expression} {earlier nodes : List SubstitutionNode}
    {shown : List (List Placed)} :
    vocabulary.NumbersAll bindings next expressions nodes shown → earlier.length = next →
      (∀ entry ∈ bindings, Recorded earlier entry.2) →
        ∀ value ∈ shown, Recorded (earlier ++ nodes) value
  | .nil, _, _ => List.forall_mem_nil _
  | .cons first rest, count, bound => by
      rw [← List.append_assoc]
      refine List.forall_mem_cons.mpr ⟨(first.recorded count bound).append _, ?_⟩
      apply rest.recorded
      · rw [List.length_append, count]
      · intro entry member
        exact (bound entry member).append _

end

def Undeclared (vocabulary : Vocabulary) (expressions : List Expression) : Prop :=
  ∀ node declaration, Expression.call node ∈ nodesOfExpressions expressions →
    vocabulary.meaning? node ≠ some (.declared declaration)

section

variable {vocabulary : Vocabulary} {expression : Expression} {expressions : List Expression}

theorem parts_eq_direct (plain : vocabulary.Plain expression) :
    vocabulary.parts expression = expression.direct := by
  cases expression with
  | call node => exact parts_of_script plain
  | _ => rfl

theorem Undeclared.of_cons (undeclared : vocabulary.Undeclared (expression :: expressions)) :
    vocabulary.Undeclared expression.direct ∧ vocabulary.Undeclared expressions := by
  unfold Undeclared at undeclared ⊢
  rw [nodesOfExpressions, Expression.nodes_eq_cons] at undeclared
  constructor
  · intro node declaration member
    exact undeclared node declaration
      (List.mem_append_left _ (List.mem_cons_of_mem _ member))
  · intro node declaration member
    exact undeclared node declaration (List.mem_append_right _ member)

end

mutual

theorem Numbers.nodes_eq_placeholders {vocabulary : Vocabulary}
    {bindings : List (String × List Placed)} {next : Nat} {expression : Expression}
    {nodes : List SubstitutionNode} {shown : List Placed} {others : List Expression} :
    vocabulary.Numbers bindings next expression nodes shown →
      vocabulary.Undeclared (expression :: others) → nodes = expression.placeholders
  | .substitution, _ => rfl
  | .bound _ _, _ => rfl
  | .property _, _ => rfl
  | .parts plain other all, undeclared => by
      rw [Expression.placeholders_of_direct other, ← parts_eq_direct plain]
      apply all.nodes_eq_placeholdersOfAll
      rw [parts_eq_direct plain]
      exact undeclared.of_cons.1
  | .declared meaning _ _, undeclared => by
      refine absurd meaning (undeclared _ _ ?_)
      rw [nodesOfExpressions, Expression.nodes_eq_cons]
      exact List.mem_cons_self
  | .aggregation _ given, undeclared => by
      rw [Expression.placeholders_of_direct rfl]
      exact given.nodes_eq_placeholdersOfAll undeclared.of_cons.1

/-- Without declared expressions the slots are those of the parameters in the text. -/
theorem NumbersAll.nodes_eq_placeholdersOfAll {vocabulary : Vocabulary}
    {bindings : List (String × List Placed)} {next : Nat} {expressions : List Expression}
    {nodes : List SubstitutionNode} {shown : List (List Placed)} :
    vocabulary.NumbersAll bindings next expressions nodes shown →
      vocabulary.Undeclared expressions → nodes = placeholdersOfAll expressions
  | .nil, _ => rfl
  | .cons first rest, undeclared => by
      rw [placeholdersOfAll_cons, first.nodes_eq_placeholders undeclared,
        rest.nodes_eq_placeholdersOfAll undeclared.of_cons.2]

end

end Vocabulary

end EventQuery
