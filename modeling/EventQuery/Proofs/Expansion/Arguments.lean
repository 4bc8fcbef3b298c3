import EventQuery.Proofs.Nesting.Parameters

set_option autoImplicit false

/-! Arguments in the place of parameters, in the text: an expression with some of its properties
replaced, what such an expression uses when it is expanded, and which expressions give the same
wherever they stand. -/

namespace EventQuery

open Resolution

section

variable (values : String → Option Expression)

mutual

/-- The expression with other expressions for some properties that name no stream, given by their
whole paths, all at once. -/
def Expression.replaced : Expression → Expression
  | .property node =>
      match node.stream with
      | none => (values node.path).getD (.property node)
      | some _ => .property node
  | .table node => .table node.replaced
  | .call node => .call node.replaced
  | .math operator left right => .math operator left.replaced right.replaced
  | .compare operator left right => .compare operator left.replaced right.replaced
  | .and left right => .and left.replaced right.replaced
  | .or left right => .or left.replaced right.replaced
  | .not inner => .not inner.replaced
  | other => other
termination_by structural expression => expression

def TableAccess.replaced : TableAccess → TableAccess
  | ⟨identity, position, table, keys, column⟩ =>
      ⟨identity, position, table, replacedAll keys, column⟩
termination_by structural node => node

def FunctionCall.replaced : FunctionCall → FunctionCall
  | ⟨position, name, distinct, parameters⟩ =>
      ⟨position, name, distinct, replacedAll parameters⟩
termination_by structural node => node

def replacedAll : List Expression → List Expression
  | [] => []
  | expression :: rest => expression.replaced :: replacedAll rest
termination_by structural expressions => expressions

end

theorem replacedAll_eq_map (expressions : List Expression) :
    replacedAll values expressions = expressions.map (Expression.replaced values) := by
  induction expressions with
  | nil => rfl
  | cons expression expressions ih => rw [replacedAll, ih, List.map_cons]

@[simp] theorem FunctionCall.name_replaced (node : FunctionCall) :
    (node.replaced values).name = node.name := by
  cases node
  rfl

@[simp] theorem FunctionCall.parameters_replaced (node : FunctionCall) :
    (node.replaced values).parameters = node.parameters.map (Expression.replaced values) := by
  cases node
  exact replacedAll_eq_map values _

@[simp] theorem TableAccess.keys_replaced (node : TableAccess) :
    (node.replaced values).keys = node.keys.map (Expression.replaced values) := by
  cases node
  exact replacedAll_eq_map values _

end

mutual

theorem Expression.replaced_none : (expression : Expression) →
    expression.replaced (fun _ => none) = expression
  | .property node => by
      rw [Expression.replaced]
      split <;> rfl
  | .table node => by rw [Expression.replaced, node.replaced_none]
  | .call node => by rw [Expression.replaced, node.replaced_none]
  | .math _ left right => by rw [Expression.replaced, left.replaced_none, right.replaced_none]
  | .compare _ left right => by rw [Expression.replaced, left.replaced_none, right.replaced_none]
  | .and left right => by rw [Expression.replaced, left.replaced_none, right.replaced_none]
  | .or left right => by rw [Expression.replaced, left.replaced_none, right.replaced_none]
  | .not inner => by rw [Expression.replaced, inner.replaced_none]
  | .constant _ _ => rfl
  | .wildcard _ _ => rfl
  | .substitution _ => rfl
  | .prior _ _ _ => rfl
  | .subquery _ _ => rfl

theorem TableAccess.replaced_none : (node : TableAccess) → node.replaced (fun _ => none) = node
  | ⟨_, _, _, keys, _⟩ => by rw [TableAccess.replaced, replacedAll_none keys]

theorem FunctionCall.replaced_none : (node : FunctionCall) → node.replaced (fun _ => none) = node
  | ⟨_, _, _, parameters⟩ => by rw [FunctionCall.replaced, replacedAll_none parameters]

theorem replacedAll_none : (expressions : List Expression) →
    replacedAll (fun _ => none) expressions = expressions
  | [] => rfl
  | expression :: rest => by rw [replacedAll, expression.replaced_none, replacedAll_none rest]

end

namespace Vocabulary

variable (vocabulary : Vocabulary)

/-- An expression stands in another one, or in the body of a declared expression that is expanded
on the way. -/
inductive Uses : Expression → Expression → Prop
  | self {expression} : Uses expression expression
  | inside {expression part used} :
      part ∈ expression.direct → Uses part used → Uses expression used
  | body {node declaration used} :
      vocabulary.meaning? node = some (.declared declaration) →
      Uses declaration.body used → Uses (.call node) used

def Calls (expression : Expression) (name : String) : Prop :=
  ∃ node, vocabulary.Uses expression (.call node) ∧ node.name = name

/-- What the expression itself gives depends on where it stands, or something is gathered for it:
an aggregation call, a wildcard, a substitution parameter, a subquery or a look at prior events. -/
def Situated : Expression → Prop
  | .wildcard _ _ => True
  | .substitution _ => True
  | .prior _ _ _ => True
  | .subquery _ _ => True
  | .call node => vocabulary.meaning? node = some .aggregation
  | _ => False

/-- Nothing that the expression uses is situated. -/
def Portable (expression : Expression) : Prop :=
  ∀ used, vocabulary.Uses expression used → ¬ vocabulary.Situated used

variable {vocabulary} {expression inner : Expression} {node : FunctionCall}
  {declaration : Declaration} {values : String → Option Expression}

theorem portable_iff :
    vocabulary.Portable expression ↔ ¬ vocabulary.Situated expression ∧
      (∀ part ∈ expression.direct, vocabulary.Portable part) ∧
      ∀ node declaration, expression = .call node →
        vocabulary.meaning? node = some (.declared declaration) →
        vocabulary.Portable declaration.body := by
  constructor
  · intro portable
    refine ⟨portable _ .self, ?_, ?_⟩
    · intro part member used uses
      exact portable used (.inside member uses)
    · rintro node declaration rfl meaning used uses
      exact portable used (.body meaning uses)
  · rintro ⟨here, parts, bodies⟩ used uses
    cases uses with
    | self => exact here
    | inside member uses => exact parts _ member used uses
    | body meaning uses => exact bodies _ _ rfl meaning used uses

theorem Portable.part (portable : vocabulary.Portable expression)
    (member : inner ∈ expression.direct) : vocabulary.Portable inner :=
  (portable_iff.mp portable).2.1 inner member

theorem Portable.body (portable : vocabulary.Portable (.call node))
    (meaning : vocabulary.meaning? node = some (.declared declaration)) :
    vocabulary.Portable declaration.body :=
  (portable_iff.mp portable).2.2 _ _ rfl meaning

theorem portable_of_properties {nodes : List PropertyNode}
    (direct : expression.direct = nodes.map .property) :
    ∀ part ∈ expression.direct, vocabulary.Portable part := by
  intro part member
  rw [direct] at member
  obtain ⟨node, _, rfl⟩ := List.mem_map.mp member
  refine portable_iff.mpr ⟨id, ?_, ?_⟩
  · intro inner inside
    cases inside
  · intro _ _ other
    cases other

theorem meaning?_replaced (values : String → Option Expression) (node : FunctionCall) :
    vocabulary.meaning? (node.replaced values) = vocabulary.meaning? node := by
  unfold meaning?
  rw [FunctionCall.name_replaced, FunctionCall.parameters_replaced, List.length_map]

theorem replaced_cases (vocabulary : Vocabulary) (values : String → Option Expression)
    (expression : Expression) :
    (∃ node value, expression = .property node ∧ values node.path = some value ∧
      expression.replaced values = value) ∨
    (expression.replaced values).direct = expression.direct.map (Expression.replaced values) ∧
      (vocabulary.Situated (expression.replaced values) ↔ vocabulary.Situated expression) ∧
      ∀ call, expression.replaced values = .call call →
        ∃ node, expression = .call node ∧ vocabulary.meaning? call = vocabulary.meaning? node := by
  cases expression with
  | property node =>
      rw [Expression.replaced]
      split
      · cases found : values node.path with
        | some value => exact .inl ⟨node, value, rfl, found, rfl⟩
        | none => exact .inr ⟨rfl, Iff.rfl, fun _ other => by cases other⟩
      · exact .inr ⟨rfl, Iff.rfl, fun _ other => by cases other⟩
  | table node =>
      exact .inr ⟨TableAccess.keys_replaced values node, Iff.rfl, fun _ other => by cases other⟩
  | call node =>
      have meaning := @meaning?_replaced vocabulary values node
      refine .inr ⟨FunctionCall.parameters_replaced values node, ?_, ?_⟩
      · unfold Situated Expression.replaced
        dsimp only
        rw [meaning]
      · intro call same
        cases same
        exact ⟨node, rfl, meaning⟩
  | _ => exact .inr ⟨rfl, Iff.rfl, fun _ other => by cases other⟩

theorem Calls.replaced {name : String} (calls : vocabulary.Calls expression name)
    (values : String → Option Expression) :
    vocabulary.Calls (expression.replaced values) name := by
  obtain ⟨node, uses, rfl⟩ := calls
  generalize same : Expression.call node = called at uses
  induction uses with
  | self =>
      subst same
      exact ⟨node.replaced values, .self, FunctionCall.name_replaced values node⟩
  | @inside expression part _ member _ ih =>
      obtain ⟨other, uses, named⟩ := ih same
      rcases vocabulary.replaced_cases values expression with ⟨_, _, rfl, _, _⟩ | ⟨direct, _, _⟩
      · cases member
      · have inside : part.replaced values ∈ (expression.replaced values).direct := by
          rw [direct]
          exact List.mem_map_of_mem member
        exact ⟨other, .inside inside uses, named⟩
  | body meaning uses _ =>
      subst same
      rw [← meaning?_replaced values] at meaning
      exact ⟨node, .body meaning uses, rfl⟩

theorem Portable.replaced (portable : vocabulary.Portable expression)
    (each : ∀ path value, values path = some value → vocabulary.Portable value) :
    vocabulary.Portable (expression.replaced values) := by
  intro used uses
  generalize same : expression.replaced values = whole at uses
  induction uses generalizing expression with
  | self =>
      subst same
      rcases vocabulary.replaced_cases values expression with
        ⟨_, _, _, found, same⟩ | ⟨_, situated, _⟩
      · rw [same]
        exact each _ _ found _ .self
      · rw [situated]
        exact portable _ .self
  | inside member uses ih =>
      subst same
      rcases vocabulary.replaced_cases values expression with
        ⟨_, _, _, found, same⟩ | ⟨direct, _, _⟩
      · rw [same] at member
        exact each _ _ found _ (.inside member uses)
      · rw [direct] at member
        obtain ⟨part, inside, rfl⟩ := List.mem_map.mp member
        exact ih (portable.part inside) rfl
  | body meaning uses _ =>
      rcases vocabulary.replaced_cases values expression with
        ⟨_, _, _, found, replaced⟩ | ⟨_, _, calls⟩
      · cases replaced.symm.trans same
        exact each _ _ found _ (.body meaning uses)
      · obtain ⟨node, rfl, alike⟩ := calls _ same
        rw [alike] at meaning
        exact portable.body meaning _ uses

end Vocabulary

section

variable {frame : Frame} {scope : Scope} {before after : Progress} {tree : Resolved}
  {expression used : Expression} {declaration : Declaration}

theorem Resolves.of_uses {vocabulary : Vocabulary}
    (derived : Resolves frame scope expression before tree after)
    (same : frame.vocabulary before.symbols = vocabulary)
    (uses : vocabulary.Uses expression used) :
    ∃ inner between found further, Resolves frame inner used between found further ∧
      frame.vocabulary between.symbols = vocabulary ∧ scope.expanding ⊆ inner.expanding := by
  induction uses generalizing scope before tree after with
  | self => exact ⟨scope, before, tree, after, derived, same, List.Subset.refl _⟩
  | inside member _ ih =>
      obtain ⟨inner, between, found, further, _, _, expanding, grown, here⟩ :=
        derived.leads_to_direct member
      rw [← expanding]
      exact ih here ((Frame.vocabulary_of_extends grown).trans same)
  | body meaning _ ih =>
      rw [← same] at meaning
      obtain ⟨arguments, between, found, further, _, given, here⟩ := derived.leads_to_body meaning
      obtain ⟨inner, reached, value, finish, resolved, vocabulary, expanding⟩ :=
        ih here (given.vocabulary_eq.trans same)
      exact ⟨inner, reached, value, finish, resolved, vocabulary,
        fun name member => expanding (List.mem_cons_of_mem _ member)⟩

theorem Resolves.unexpanded {name : String}
    (derived : Resolves frame scope expression before tree after)
    (declared : frame.declaration? before.symbols name = some declaration)
    (calls : (frame.vocabulary before.symbols).Calls expression name) :
    name ∉ scope.expanding := by
  obtain ⟨node, uses, rfl⟩ := calls
  obtain ⟨inner, between, found, further, here, vocabulary, expanding⟩ := derived.of_uses rfl uses
  have meaning := Frame.meaning?_of_declared declared
  rw [← vocabulary] at meaning
  intro within
  cases here with
  | declared _ _ unexpanded _ _ => exact unexpanded (expanding within)
  | script undeclared found _ =>
      cases meaning.symm.trans (Frame.meaning?_of_script undeclared found)
  | aggregation undeclared unscripted known _ _ _ _ _ _ _ =>
      cases meaning.symm.trans (Frame.meaning?_of_family undeclared unscripted known)

theorem Resolves.not_calls_of_replaced {name : String} {values : String → Option Expression}
    (derived : Resolves frame scope (declaration.body.replaced values) before tree after)
    (declared : frame.declaration? before.symbols name = some declaration) :
    ¬ (frame.vocabulary before.symbols).Calls declaration.body name := by
  intro calls
  obtain ⟨node, uses, rfl⟩ := calls.replaced values
  obtain ⟨inner, between, found, further, here, vocabulary, _⟩ := derived.of_uses rfl uses
  have meaning := Frame.meaning?_of_declared declared
  rw [← vocabulary] at meaning
  obtain ⟨arguments, middle, body, finish, _, given, again⟩ := here.leads_to_body meaning
  have same := given.vocabulary_eq.trans vocabulary
  have declaredThere : frame.declaration? middle.symbols node.name = some declaration := by
    have declarations := congrArg Vocabulary.declarations same
    unfold Frame.declaration? SymbolContext.declaration? at declared ⊢
    rw [show middle.symbols.declarations = before.symbols.declarations from declarations]
    exact declared
  rw [← same] at calls
  exact again.unexpanded declaredThere calls List.mem_cons_self

end

end EventQuery
