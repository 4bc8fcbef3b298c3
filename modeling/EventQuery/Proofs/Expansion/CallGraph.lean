import EventQuery.Proofs.Expansion.Arguments
import Mathlib.Logic.Relation

set_option autoImplicit false

/-! Which declared expressions call which others. No statement compiles from whose calls one comes
to a declaration that calls itself. -/

namespace EventQuery

open Relation

/-- There is a call of the name in the text, subqueries aside. -/
inductive Expression.Mentions : Expression → String → Prop
  | call (node : FunctionCall) : Mentions (.call node) node.name
  | inside {expression part : Expression} {name : String} :
      part ∈ expression.direct → Mentions part name → Mentions expression name

namespace Vocabulary

variable (vocabulary : Vocabulary)

/-- The declaration that a name denotes; one of the statement comes before a global one. -/
def declaration? (name : String) : Option Declaration :=
  (vocabulary.symbols.declaration? name).or (vocabulary.services.declaration? name)

/-- Both names denote declarations, and there is a call of the second in the body of the first. -/
def Links (caller called : String) : Prop :=
  ∃ declaration, vocabulary.declaration? caller = some declaration ∧
    declaration.body.Mentions called ∧ (vocabulary.declaration? called).isSome

/-- The links from a name come back to it. -/
def Loops (name : String) : Prop :=
  TransGen vocabulary.Links name name

/-- From some call in the expression one comes to a name whose links come back to it. -/
def Circular (expression : Expression) : Prop :=
  ∃ start name, expression.Mentions start ∧ ReflTransGen vocabulary.Links start name ∧
    vocabulary.Loops name

variable {vocabulary} {expression inner used : Expression} {name other : String}

theorem meaning?_of_declaration? {node : FunctionCall} {declaration : Declaration}
    (declared : vocabulary.declaration? node.name = some declaration) :
    vocabulary.meaning? node = some (.declared declaration) := by
  unfold declaration? at declared
  unfold meaning?
  rw [declared]

theorem Uses.trans (first : vocabulary.Uses expression inner)
    (second : vocabulary.Uses inner used) : vocabulary.Uses expression used := by
  induction first with
  | self => exact second
  | inside member _ ih => exact .inside member (ih second)
  | body meaning _ ih => exact .body meaning (ih second)

theorem calls_of_mentions (mentions : expression.Mentions name) :
    vocabulary.Calls expression name := by
  induction mentions with
  | call node => exact ⟨node, .self, rfl⟩
  | inside member _ ih =>
      obtain ⟨node, uses, named⟩ := ih
      exact ⟨node, .inside member uses, named⟩

theorem Calls.link (calls : vocabulary.Calls expression name)
    (links : vocabulary.Links name other) : vocabulary.Calls expression other := by
  obtain ⟨node, uses, rfl⟩ := calls
  obtain ⟨declaration, declared, mentions, _⟩ := links
  have calledInBody : vocabulary.Calls declaration.body other := calls_of_mentions mentions
  obtain ⟨called, inBody, named⟩ := calledInBody
  exact ⟨called, uses.trans (.body (meaning?_of_declaration? declared) inBody), named⟩

theorem Calls.path (calls : vocabulary.Calls expression name)
    (path : ReflTransGen vocabulary.Links name other) : vocabulary.Calls expression other := by
  induction path with
  | refl => exact calls
  | tail _ links ih => exact ih.link links

theorem Loops.calls (loops : vocabulary.Loops name) :
    ∃ declaration, vocabulary.declaration? name = some declaration ∧
      vocabulary.Calls declaration.body name := by
  obtain ⟨next, links, path⟩ := TransGen.head'_iff.mp loops
  obtain ⟨declaration, declared, mentions, _⟩ := links
  exact ⟨declaration, declared, (calls_of_mentions mentions).path path⟩

end Vocabulary

theorem Resolves.not_circular {frame : Frame} {scope : Scope} {expression : Expression}
    {tree : Resolved} {before after : Progress}
    (derived : Resolves frame scope expression before tree after) :
    ¬ (frame.vocabulary before.symbols).Circular expression := by
  intro circular
  obtain ⟨start, name, mentions, path, loops⟩ := circular
  obtain ⟨node, uses, rfl⟩ := (Vocabulary.calls_of_mentions mentions).path path
  obtain ⟨declaration, declared, again⟩ := loops.calls
  obtain ⟨around, reached, call, _, here, same, _⟩ := derived.of_uses rfl uses
  have meaning := Vocabulary.meaning?_of_declaration? declared
  rw [← same] at meaning
  obtain ⟨arguments, between, body, _, _, given, expanded⟩ := here.leads_to_body meaning
  have vocabulary := given.vocabulary_eq.trans same
  have declaredThere : frame.declaration? between.symbols node.name = some declaration := by
    change (frame.vocabulary between.symbols).declaration? node.name = some declaration
    rw [vocabulary]
    exact declared
  -- Within the expansion of the call, the same call would be expanded again.
  rw [← vocabulary] at again
  exact expanded.unexpanded declaredThere again List.mem_cons_self

theorem Services.not_circular_of_compileWith {services : Services} {order : Nat → List Nat}
    {statement : Statement} {symbols : SymbolContext} {memory : CompilerMemory}
    {spec : StatementSpec} {item : Scope × Expression}
    (compiled : (services.compileWith order statement symbols memory).result = .ok spec)
    (member : item ∈ statement.items) :
    ¬ (services.vocabulary statement symbols).Circular item.2 := by
  obtain ⟨bare, finish, derived, _⟩ := compiles_of_compileWith compiled
  cases derived with
  | intro bound items _ _ =>
      obtain ⟨done, rest, split⟩ := List.append_of_mem member
      rw [split] at items
      obtain ⟨earlier, found, later, between, further, _, first, here⟩ := items.split
      have uncircular := here.not_circular
      rw [first.vocabulary_eq] at uncircular
      exact uncircular

end EventQuery
