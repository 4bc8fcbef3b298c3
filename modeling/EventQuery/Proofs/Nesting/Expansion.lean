import EventQuery.Proofs.Resolution.Growth
import EventQuery.Proofs.Specification.References
import EventQuery.Proofs.Termination.Visits

set_option autoImplicit false

/-! What the expansion of declared expressions does to aggregation calls, read off the text: which
expressions aggregate, which of the names bound around them they place in their value, and
which they hand to an aggregation call. -/

namespace EventQuery

/-- What a call may refer to: the declarations and scripts of the statement, and what all
statements share. -/
structure Vocabulary where
  services : Services
  declarations : List (String × Declaration)
  scripts : List Script

inductive CallMeaning where
  | declared (declaration : Declaration)
  | script
  | aggregation

namespace Vocabulary

def symbols (vocabulary : Vocabulary) : SymbolContext :=
  { SymbolContext.empty with
    declarations := vocabulary.declarations
    scripts := vocabulary.scripts }

def meaning? (vocabulary : Vocabulary) (node : FunctionCall) : Option CallMeaning :=
  match (vocabulary.symbols.declaration? node.name).or
      (vocabulary.services.declaration? node.name) with
  | some declaration => some (.declared declaration)
  | none =>
      if vocabulary.symbols.scripts.any (fun script => script.name = node.name) then
        (vocabulary.symbols.script? node.name node.parameters.length).map (fun _ => .script)
      else
        (vocabulary.services.family? node.name).map (fun _ => .aggregation)

def inside (vocabulary : Vocabulary) (statement : Statement) : Vocabulary :=
  ⟨vocabulary.services, (SymbolContext.empty.opened statement).declarations,
    (SymbolContext.empty.opened statement).scripts⟩

end Vocabulary

namespace Frame

def vocabulary (frame : Frame) (symbols : SymbolContext) : Vocabulary :=
  ⟨frame.services, symbols.declarations, symbols.scripts⟩

variable {frame : Frame} {symbols : SymbolContext} {node : FunctionCall}

theorem vocabulary_of_extends {before after : Progress} (grown : before.Extends after) :
    frame.vocabulary after.symbols = frame.vocabulary before.symbols := by
  unfold vocabulary
  rw [grown.declarations, grown.scripts]

theorem meaning?_of_declared {declaration : Declaration}
    (declared : frame.declaration? symbols node.name = some declaration) :
    (frame.vocabulary symbols).meaning? node = some (.declared declaration) := by
  have named : ((frame.vocabulary symbols).symbols.declaration? node.name).or
      ((frame.vocabulary symbols).services.declaration? node.name) = some declaration := declared
  unfold Vocabulary.meaning?
  rw [named]

theorem meaning?_of_script {script : Script}
    (undeclared : frame.declaration? symbols node.name = none)
    (found : symbols.script? node.name node.parameters.length = some script) :
    (frame.vocabulary symbols).meaning? node = some .script := by
  have named : ((frame.vocabulary symbols).symbols.declaration? node.name).or
      ((frame.vocabulary symbols).services.declaration? node.name) = none := undeclared
  have scripted : (frame.vocabulary symbols).symbols.script? node.name node.parameters.length =
      some script := found
  unfold Vocabulary.meaning?
  rw [named]
  dsimp only
  rw [scripted, if_pos (SymbolContext.any_of_script? scripted)]
  rfl

theorem meaning?_of_family {family : FunctionFamily}
    (undeclared : frame.declaration? symbols node.name = none)
    (unscripted : symbols.scripts.any (fun script => script.name = node.name) = false)
    (known : frame.services.family? node.name = some family) :
    (frame.vocabulary symbols).meaning? node = some .aggregation := by
  have named : ((frame.vocabulary symbols).symbols.declaration? node.name).or
      ((frame.vocabulary symbols).services.declaration? node.name) = none := undeclared
  have kept : (frame.vocabulary symbols).symbols.scripts.any
      (fun script => script.name = node.name) = false := unscripted
  have shared : (frame.vocabulary symbols).services.family? node.name = some family := known
  unfold Vocabulary.meaning?
  rw [named]
  dsimp only
  rw [kept, shared, if_neg Bool.false_ne_true]
  rfl

end Frame

theorem ResolvesAll.vocabulary_eq {frame : Frame} {items : List (Scope × Expression)}
    {trees : List Resolved} {before after : Progress}
    (derived : ResolvesAll frame items before trees after) :
    frame.vocabulary after.symbols = frame.vocabulary before.symbols :=
  Frame.vocabulary_of_extends derived.extends

/-- The expressions that stand directly in an expression, subqueries aside. -/
def Expression.direct : Expression → List Expression
  | .table node => node.keys
  | .call node => node.parameters
  | expression => expression.operands

/-- What the parameters of a declared expression stand for in a call of it. -/
def FunctionCall.matched (node : FunctionCall) (declaration : Declaration) :
    List (String × Expression) :=
  (declaration.parameters.zip node.parameters).reverse

namespace Vocabulary

variable (vocabulary : Vocabulary)

/-- The expressions whose values are parts of the value of an expression. -/
def parts : Expression → List Expression
  | .call node =>
      match vocabulary.meaning? node with
      | some .script => node.parameters
      | _ => []
  | expression => expression.direct

/-- The value of the expression holds the value that is bound to a name around it. -/
inductive Places : Expression → String → Prop
  | property {node : PropertyNode} :
      node.stream = none → Places (.property node) node.path
  | part {expression part name} :
      part ∈ vocabulary.parts expression → Places part name → Places expression name
  | declared {node declaration inner argument name} :
      vocabulary.meaning? node = some (.declared declaration) →
      Places declaration.body inner →
      (node.matched declaration).lookup inner = some argument →
      Places argument name → Places (.call node) name

/-- The value of the expression holds an aggregation call, the values bound around it aside. -/
inductive Aggregates : Expression → Prop
  | call {node} : vocabulary.meaning? node = some .aggregation → Aggregates (.call node)
  | part {expression part} :
      part ∈ vocabulary.parts expression → Aggregates part → Aggregates expression
  | body {node declaration} :
      vocabulary.meaning? node = some (.declared declaration) →
      Aggregates declaration.body → Aggregates (.call node)
  | argument {node declaration inner argument} :
      vocabulary.meaning? node = some (.declared declaration) →
      vocabulary.Places declaration.body inner →
      (node.matched declaration).lookup inner = some argument →
      Aggregates argument → Aggregates (.call node)

/-- A parameter of an aggregation call in the expansion of the expression places the value that is
bound to a name around the expression. -/
inductive Hands : Expression → String → Prop
  | parameter {node parameter name} :
      vocabulary.meaning? node = some .aggregation →
      parameter ∈ node.parameters → vocabulary.Places parameter name → Hands (.call node) name
  | inside {expression inner name} :
      inner ∈ expression.direct → Hands inner name → Hands expression name
  | body {node declaration inner argument name} :
      vocabulary.meaning? node = some (.declared declaration) →
      Hands declaration.body inner →
      (node.matched declaration).lookup inner = some argument →
      vocabulary.Places argument name → Hands (.call node) name

end Vocabulary

/-- Somewhere in the expansion of the expression, or in a subquery of it, a declared expression
that hands a parameter to an aggregation call is given an argument that aggregates. -/
inductive Vocabulary.Nests : Vocabulary → Expression → Prop
  | inside {vocabulary expression inner} :
      inner ∈ expression.direct → Nests vocabulary inner → Nests vocabulary expression
  | body {vocabulary node declaration} :
      vocabulary.meaning? node = some (.declared declaration) →
      Nests vocabulary declaration.body → Nests vocabulary (.call node)
  | handed {vocabulary node declaration inner argument} :
      vocabulary.meaning? node = some (.declared declaration) →
      vocabulary.Hands declaration.body inner →
      (node.matched declaration).lookup inner = some argument →
      vocabulary.Aggregates argument → Nests vocabulary (.call node)
  | subquery {vocabulary position statement scope expression} :
      (scope, expression) ∈ statement.items →
      Nests (vocabulary.inside statement) expression →
      Nests vocabulary (.subquery position statement)

namespace Resolved

def Aggregates (tree : Resolved) : Prop :=
  ∃ site position result, aggregation site position result ∈ tree.nodes

theorem aggregates_iff {tree : Resolved} :
    tree.Aggregates ↔ ∃ site result, Reference.call site result ∈ tree.references := by
  unfold Aggregates references
  simp only [List.mem_filterMap]
  constructor
  · rintro ⟨site, position, result, member⟩
    exact ⟨site, result, _, member, rfl⟩
  · rintro ⟨site, result, node, member, refers⟩
    cases node with
    | aggregation other position found =>
        cases refers
        exact ⟨site, position, result, member⟩
    | _ => cases refers

theorem aggregates_aggregation (site : Nat) (position : Option Position)
    (result : Option ResultType) : (aggregation site position result).Aggregates :=
  ⟨site, position, result, List.mem_singleton_self _⟩

theorem mem_referencesOfAll_call_iff {trees : List Resolved} :
    (∃ site result, Reference.call site result ∈ referencesOfAll trees) ↔
      ∃ tree ∈ trees, tree.Aggregates := by
  simp only [mem_referencesOfAll, aggregates_iff]
  constructor
  · rintro ⟨site, result, tree, member, inside⟩
    exact ⟨tree, member, site, result, inside⟩
  · rintro ⟨tree, member, site, result, inside⟩
    exact ⟨site, result, tree, member, inside⟩

theorem aggregates_of_references {tree : Resolved} {trees : List Resolved}
    (same : tree.references = referencesOfAll trees) :
    tree.Aggregates ↔ ∃ part ∈ trees, part.Aggregates := by
  rw [aggregates_iff, same, mem_referencesOfAll_call_iff]

end Resolved

end EventQuery
