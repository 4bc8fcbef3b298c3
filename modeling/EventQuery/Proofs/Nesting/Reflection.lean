import EventQuery.Proofs.Nesting.Expansion

set_option autoImplicit false

/-! What a tree has of aggregation calls can be read off the expression that it was resolved from:
it aggregates if the expression does, or if the expression places a value in it that does. Where
aggregation calls are barred, only the second is left. -/

namespace EventQuery

open Resolution

namespace Vocabulary

variable {vocabulary : Vocabulary} {scope : Scope} {expression : Expression} {tree : Resolved}

/-- Neither a property nor a call that is expanded or aggregates: all that the value is made of
are the values of the parts. -/
def Plain (vocabulary : Vocabulary) : Expression → Prop
  | .property _ => False
  | .call node => vocabulary.meaning? node = some .script
  | _ => True

theorem parts_of_script {node : FunctionCall} (meaning : vocabulary.meaning? node = some .script) :
    vocabulary.parts (.call node) = node.parameters := by
  unfold parts
  dsimp only
  rw [meaning]

theorem aggregates_iff_of_plain (plain : vocabulary.Plain expression) :
    vocabulary.Aggregates expression ↔
      ∃ part ∈ vocabulary.parts expression, vocabulary.Aggregates part := by
  constructor
  · intro aggregates
    cases aggregates with
    | call meaning => cases meaning.symm.trans plain
    | part member inner => exact ⟨_, member, inner⟩
    | body meaning _ => cases meaning.symm.trans plain
    | argument meaning _ _ _ => cases meaning.symm.trans plain
  · rintro ⟨part, member, inner⟩
    exact .part member inner

theorem places_iff_of_plain {name : String} (plain : vocabulary.Plain expression) :
    vocabulary.Places expression name ↔
      ∃ part ∈ vocabulary.parts expression, vocabulary.Places part name := by
  constructor
  · intro places
    cases places with
    | property _ => exact plain.elim
    | part member inner => exact ⟨_, member, inner⟩
    | declared meaning _ _ _ => cases meaning.symm.trans plain
  · rintro ⟨part, member, inner⟩
    exact .part member inner

theorem places_property_iff {node : PropertyNode} {name : String} :
    vocabulary.Places (.property node) name ↔ node.stream = none ∧ node.path = name := by
  constructor
  · intro places
    cases places with
    | property unnamed => exact ⟨unnamed, rfl⟩
    | part member _ => cases member
  · rintro ⟨unnamed, rfl⟩
    exact .property unnamed

theorem not_aggregates_property {node : PropertyNode} :
    ¬ vocabulary.Aggregates (.property node) := by
  intro aggregates
  cases aggregates with
  | part member _ => cases member

section

variable {node : FunctionCall} {declaration : Declaration}
variable (meaning : vocabulary.meaning? node = some (.declared declaration))

include meaning

private theorem parts_of_declared : vocabulary.parts (.call node) = [] := by
  unfold parts
  dsimp only
  rw [meaning]

theorem aggregates_declared_iff :
    vocabulary.Aggregates (.call node) ↔
      vocabulary.Aggregates declaration.body ∨ ∃ inner argument,
        vocabulary.Places declaration.body inner ∧
        (node.matched declaration).lookup inner = some argument ∧
        vocabulary.Aggregates argument := by
  constructor
  · intro aggregates
    cases aggregates with
    | call other => cases meaning.symm.trans other
    | part member _ =>
        rw [parts_of_declared meaning] at member
        cases member
    | body other inner =>
        cases meaning.symm.trans other
        exact .inl inner
    | argument other places matched inner =>
        cases meaning.symm.trans other
        exact .inr ⟨_, _, places, matched, inner⟩
  · rintro (inner | ⟨_, _, places, matched, inner⟩)
    · exact .body meaning inner
    · exact .argument meaning places matched inner

theorem places_declared_iff {name : String} :
    vocabulary.Places (.call node) name ↔ ∃ inner argument,
      vocabulary.Places declaration.body inner ∧
      (node.matched declaration).lookup inner = some argument ∧
      vocabulary.Places argument name := by
  constructor
  · intro places
    cases places with
    | part member _ =>
        rw [parts_of_declared meaning] at member
        cases member
    | declared other inner matched argument =>
        cases meaning.symm.trans other
        exact ⟨_, _, inner, matched, argument⟩
  · rintro ⟨_, _, inner, matched, argument⟩
    exact .declared meaning inner matched argument

end

/-- The tree aggregates as the expression says, and an expression within a parameter of an
aggregation call does not aggregate. -/
structure Reflects (vocabulary : Vocabulary) (scope : Scope) (expression : Expression)
    (tree : Resolved) : Prop where
  aggregates : tree.Aggregates ↔ vocabulary.Aggregates expression ∨ ∃ name bound,
    vocabulary.Places expression name ∧ scope.bindings.lookup name = some bound ∧
      bound.Aggregates
  flat : scope.inAggregation = true → ¬ vocabulary.Aggregates expression

end Vocabulary

section

variable {α β : Type} {relation : α → β → Prop} {items : List α} {others : List β}

private theorem exists_related (each : List.Forall₂ relation items others) {item : α}
    (member : item ∈ items) : ∃ other ∈ others, relation item other := by
  induction each with
  | nil => cases member
  | cons head _ ih =>
      rcases List.mem_cons.mp member with rfl | later
      · exact ⟨_, List.mem_cons_self, head⟩
      · obtain ⟨other, inside, related⟩ := ih later
        exact ⟨other, List.mem_cons_of_mem _ inside, related⟩

theorem related_of_some {item : α} {found : Option β}
    (related : Option.Rel relation (some item) found) :
    ∃ other, found = some other ∧ relation item other := by
  cases related with
  | some here => exact ⟨_, rfl, here⟩

theorem some_of_related {found : Option α} {other : β}
    (related : Option.Rel relation found (some other)) :
    ∃ item, found = some item ∧ relation item other := by
  cases related with
  | some here => exact ⟨_, rfl, here⟩

theorem lookup_related_pairs {pairs : List (String × α)} {otherPairs : List (String × β)}
    (each : List.Forall₂ (fun pair other => pair.1 = other.1 ∧ relation pair.2 other.2)
      pairs otherPairs) (name : String) :
    Option.Rel relation (pairs.lookup name) (otherPairs.lookup name) := by
  induction each with
  | nil => exact .none
  | @cons pair other _ _ head _ ih =>
      obtain ⟨key, item⟩ := pair
      obtain ⟨otherKey, otherItem⟩ := other
      obtain ⟨same, related⟩ := head
      dsimp only at same
      subst same
      rw [List.lookup_cons, List.lookup_cons]
      split
      · exact .some related
      · exact ih

theorem zip_reverse_related (each : List.Forall₂ relation items others) (names : List String) :
    List.Forall₂ (fun pair other => pair.1 = other.1 ∧ relation pair.2 other.2)
      (names.zip items).reverse (names.zip others).reverse := by
  apply List.forall₂_reverse_iff.mpr
  induction each generalizing names with
  | nil =>
      rw [List.zip_nil_right, List.zip_nil_right]
      exact .nil
  | cons head _ ih =>
      cases names with
      | nil => exact .nil
      | cons first names => exact .cons ⟨rfl, head⟩ (ih names)

theorem lookup_related (each : List.Forall₂ relation items others) (names : List String)
    (name : String) : Option.Rel relation ((names.zip items).reverse.lookup name)
      ((names.zip others).reverse.lookup name) :=
  lookup_related_pairs (zip_reverse_related each names) name

end

namespace Vocabulary

variable {vocabulary : Vocabulary} {scope : Scope} {expression : Expression} {tree : Resolved}

theorem Reflects.of_parts {trees : List Resolved} (plain : vocabulary.Plain expression)
    (made : tree.Aggregates ↔ ∃ part ∈ trees, part.Aggregates)
    (each : List.Forall₂ (vocabulary.Reflects scope) (vocabulary.parts expression) trees) :
    vocabulary.Reflects scope expression tree := by
  constructor
  · rw [made, aggregates_iff_of_plain plain]
    constructor
    · rintro ⟨found, member, aggregates⟩
      obtain ⟨part, inside, reflects⟩ := exists_related each.flip member
      rcases reflects.aggregates.mp aggregates with own | ⟨name, bound, places, known, held⟩
      · exact .inl ⟨part, inside, own⟩
      · exact .inr ⟨name, bound, (places_iff_of_plain plain).mpr ⟨part, inside, places⟩, known,
          held⟩
    · rintro (⟨part, inside, own⟩ | ⟨name, bound, places, known, held⟩)
      · obtain ⟨found, member, reflects⟩ := exists_related each inside
        exact ⟨found, member, reflects.aggregates.mpr (.inl own)⟩
      · obtain ⟨part, inside, places⟩ := (places_iff_of_plain plain).mp places
        obtain ⟨found, member, reflects⟩ := exists_related each inside
        exact ⟨found, member, reflects.aggregates.mpr (.inr ⟨name, bound, places, known, held⟩)⟩
  · intro within
    rw [aggregates_iff_of_plain plain]
    rintro ⟨part, inside, own⟩
    obtain ⟨found, member, reflects⟩ := exists_related each inside
    exact reflects.flat within own

theorem Reflects.of_leaf (plain : vocabulary.Plain expression)
    (leaf : vocabulary.parts expression = []) (bare : ¬ tree.Aggregates) :
    vocabulary.Reflects scope expression tree := by
  apply Reflects.of_parts plain (iff_of_false bare ?_)
  · rw [leaf]
    exact .nil
  · rintro ⟨part, member, _⟩
    cases member

section

variable {node : FunctionCall} {declaration : Declaration} {arguments : List Resolved}
  {name : String}
variable (given : List.Forall₂ (vocabulary.Reflects scope) node.parameters arguments)

include given

theorem bound_of_argument {argument : Expression}
    (matched : (node.matched declaration).lookup name = some argument) :
    ∃ bound, (scope.entering node.name declaration arguments).bindings.lookup name = some bound ∧
      vocabulary.Reflects scope argument bound := by
  have related := lookup_related given declaration.parameters name
  unfold FunctionCall.matched at matched
  rw [matched] at related
  exact related_of_some related

theorem argument_of_bound {bound : Resolved}
    (known : (scope.entering node.name declaration arguments).bindings.lookup name =
      some bound) :
    ∃ argument, (node.matched declaration).lookup name = some argument ∧
      vocabulary.Reflects scope argument bound := by
  have related := lookup_related given declaration.parameters name
  unfold Scope.entering at known
  rw [known] at related
  exact some_of_related related

end

theorem Reflects.declared {node : FunctionCall} {declaration : Declaration}
    {arguments : List Resolved} {body : Resolved}
    (meaning : vocabulary.meaning? node = some (.declared declaration))
    (given : List.Forall₂ (vocabulary.Reflects scope) node.parameters arguments)
    (inner : vocabulary.Reflects (scope.entering node.name declaration arguments)
      declaration.body body) :
    vocabulary.Reflects scope (.call node) (.declared node.name body) := by
  have outer : (Resolved.declared node.name body).Aggregates ↔ body.Aggregates := by
    rw [Resolved.aggregates_iff, Resolved.aggregates_iff, Resolved.references_declared]
  constructor
  · rw [outer, inner.aggregates, aggregates_declared_iff meaning]
    simp only [places_declared_iff meaning]
    constructor
    · rintro (own | ⟨name, bound, places, known, held⟩)
      · exact .inl (.inl own)
      · obtain ⟨argument, argumentAt, reflects⟩ := argument_of_bound given known
        rcases reflects.aggregates.mp held with own | ⟨other, value, further, found, holds⟩
        · exact .inl (.inr ⟨name, argument, places, argumentAt, own⟩)
        · exact .inr ⟨other, value, ⟨name, argument, places, argumentAt, further⟩, found, holds⟩
    · rintro ((own | ⟨name, argument, places, argumentAt, own⟩) |
        ⟨other, value, ⟨name, argument, places, argumentAt, further⟩, found, holds⟩)
      · exact .inl own
      · obtain ⟨bound, known, reflects⟩ := bound_of_argument given argumentAt
        exact .inr ⟨name, bound, places, known, reflects.aggregates.mpr (.inl own)⟩
      · obtain ⟨bound, known, reflects⟩ := bound_of_argument given argumentAt
        exact .inr ⟨name, bound, places, known,
          reflects.aggregates.mpr (.inr ⟨other, value, further, found, holds⟩)⟩
  · intro within
    rw [aggregates_declared_iff meaning]
    rintro (own | ⟨name, argument, _, argumentAt, own⟩)
    · exact inner.flat within own
    · obtain ⟨bound, _, reflects⟩ := bound_of_argument given argumentAt
      exact reflects.flat within own

end Vocabulary

/-! ### Every rule -/

section

variable {frame : Frame} {scope : Scope} {before between : Progress} {tree : Resolved}

private theorem reflects_property {node : PropertyNode} {after : Progress}
    (run : Yields (frame.resolveProperty scope node) before tree after)
    (vocabulary : Vocabulary) : vocabulary.Reflects scope (.property node) tree := by
  refine ⟨?_, fun _ => Vocabulary.not_aggregates_property⟩
  rcases Frame.yields_resolveProperty run with ⟨unnamed, known, _⟩ | ⟨unbound, source⟩
  · constructor
    · intro held
      exact .inr ⟨_, _, .property unnamed, known, held⟩
    · rintro (own | ⟨name, bound, places, found, held⟩)
      · exact absurd own Vocabulary.not_aggregates_property
      · obtain ⟨_, rfl⟩ := Vocabulary.places_property_iff.mp places
        cases known.symm.trans found
        exact held
  · have bare : ¬ tree.Aggregates := by
      rcases source with ⟨_, _, _, read⟩ | ⟨_, rfl, _⟩
      · obtain ⟨_, _, _, rfl, _⟩ := Frame.yields_resolveStreamProperty_iff.mp read
        rintro ⟨_, _, _, member⟩
        cases List.mem_singleton.mp member
      · rintro ⟨_, _, _, member⟩
        cases List.mem_singleton.mp member
    refine iff_of_false bare ?_
    rintro (own | ⟨name, bound, places, found, held⟩)
    · exact Vocabulary.not_aggregates_property own
    · obtain ⟨unnamed, rfl⟩ := Vocabulary.places_property_iff.mp places
      rw [unbound unnamed] at found
      cases found

private theorem reflects_script {node : FunctionCall} {vocabulary : Vocabulary} {called : Script}
    {arguments : List Resolved} (meaning : vocabulary.meaning? node = some .script)
    (given : List.Forall₂ (vocabulary.Reflects scope) node.parameters arguments) :
    vocabulary.Reflects scope (.call node) (.script called arguments) := by
  rw [← Vocabulary.parts_of_script meaning] at given
  exact .of_parts meaning (Resolved.aggregates_of_references Resolved.references_script) given

private theorem reflects_aggregation {node : FunctionCall} {vocabulary : Vocabulary} {site : Nat}
    (meaning : vocabulary.meaning? node = some .aggregation)
    (outside : scope.inAggregation = false) :
    vocabulary.Reflects scope (.call node) (.aggregation site node.position none) := by
  constructor
  · exact iff_of_true (Resolved.aggregates_aggregation _ _ _) (.inl (.call meaning))
  · intro within
    rw [outside] at within
    cases within

private theorem reflects_each {vocabulary : Vocabulary} {expressions : List Expression}
    {trees : List Resolved}
    (each : List.Forall₂ (fun item tree => vocabulary.Reflects item.1 item.2 tree)
      (scope.each expressions) trees) :
    List.Forall₂ (vocabulary.Reflects scope) expressions trees := by
  unfold Scope.each at each
  rw [List.forall₂_map_left_iff] at each
  exact each

private theorem reflects_both {left right : Expression} {leftTree rightTree : Resolved}
    (grown : before.Extends between)
    (first : (frame.vocabulary before.symbols).Reflects scope left leftTree)
    (second : (frame.vocabulary between.symbols).Reflects scope right rightTree) :
    List.Forall₂ ((frame.vocabulary before.symbols).Reflects scope) [left, right]
      [leftTree, rightTree] := by
  rw [Frame.vocabulary_of_extends grown] at second
  exact .cons first (.cons second .nil)

private theorem made_of_two {left right : Resolved}
    (same : tree.references = left.references ++ right.references) :
    tree.Aggregates ↔ ∃ part ∈ [left, right], part.Aggregates := by
  apply Resolved.aggregates_of_references
  rw [same, Resolved.referencesOfAll_pair]

end

mutual

/-- A tree that an expression is resolved to reflects the expression. -/
theorem Resolves.reflects {frame : Frame} {scope : Scope} {expression : Expression}
    {tree : Resolved} {before after : Progress} :
    Resolves frame scope expression before tree after →
      (frame.vocabulary before.symbols).Reflects scope expression tree
  | .constant => by
      refine .of_leaf trivial rfl ?_
      rintro ⟨_, _, _, member⟩
      cases List.mem_singleton.mp member
  | .property run => reflects_property run _
  | .wildcard run => by
      obtain ⟨_, _, _, _, rfl⟩ := Frame.yields_resolveWildcard run
      refine .of_leaf trivial rfl ?_
      rintro ⟨_, _, _, member⟩
      cases List.mem_singleton.mp member
  | .substitution run => by
      obtain ⟨rfl, _⟩ := Frame.yields_resolveSubstitution run
      refine .of_leaf trivial rfl ?_
      rintro ⟨_, _, _, member⟩
      cases List.mem_singleton.mp member
  | .prior run => by
      obtain ⟨_, _, _, _, _, rfl, _⟩ := Frame.yields_resolvePrior_iff.mp run
      refine .of_leaf trivial rfl ?_
      rintro ⟨_, _, _, member⟩
      cases List.mem_singleton.mp member
  | .table _ _ given checked _ => by
      refine .of_parts trivial ?_ (reflects_each given.reflects)
      apply Resolved.aggregates_of_references
      rw [Resolved.references_table]
      exact Resolved.referencesOfAll_of_checkedKeys checked
  | .declared declared _ _ given inner => by
      have body := inner.reflects
      rw [given.vocabulary_eq] at body
      exact .declared (Frame.meaning?_of_declared declared)
        (reflects_each given.reflects) body
  | .script undeclared found given =>
      reflects_script (Frame.meaning?_of_script undeclared found) (reflects_each given.reflects)
  | .aggregation undeclared unscripted known _ _ outside _ _ _ _ =>
      reflects_aggregation (Frame.meaning?_of_family undeclared unscripted known) outside
  | .subquery _ _ => by
      refine .of_leaf trivial rfl ?_
      rintro ⟨_, _, _, member⟩
      cases List.mem_singleton.mp member
  | .math left right =>
      .of_parts trivial (made_of_two Resolved.references_math)
        (reflects_both left.extends left.reflects right.reflects)
  | .compare left right =>
      .of_parts trivial (made_of_two Resolved.references_compare)
        (reflects_both left.extends left.reflects right.reflects)
  | .and left right =>
      .of_parts trivial (made_of_two Resolved.references_and)
        (reflects_both left.extends left.reflects right.reflects)
  | .or left right =>
      .of_parts trivial (made_of_two Resolved.references_or)
        (reflects_both left.extends left.reflects right.reflects)
  | .not inner => by
      refine .of_parts trivial ?_ (.cons inner.reflects .nil)
      apply Resolved.aggregates_of_references
      rw [Resolved.references_not, Resolved.referencesOfAll_singleton]

theorem ResolvesAll.reflects {frame : Frame} {items : List (Scope × Expression)}
    {trees : List Resolved} {before after : Progress} :
    ResolvesAll frame items before trees after →
      List.Forall₂ (fun item tree =>
        (frame.vocabulary before.symbols).Reflects item.1 item.2 tree) items trees
  | .nil => .nil
  | .cons head tail => by
      have later := tail.reflects
      rw [Frame.vocabulary_of_extends head.extends] at later
      exact .cons head.reflects later

end

theorem ResolvesAll.reflects_each {frame : Frame} {scope : Scope} {expressions : List Expression}
    {trees : List Resolved} {before after : Progress}
    (derived : ResolvesAll frame (scope.each expressions) before trees after) :
    List.Forall₂ ((frame.vocabulary before.symbols).Reflects scope) expressions trees :=
  EventQuery.reflects_each derived.reflects

end EventQuery
