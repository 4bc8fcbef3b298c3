import EventQuery.Proofs.Expansion.Similarity

set_option autoImplicit false

/-! Expressions in two scopes that are resolved alike: they differ only at places that are known to
give the same. The bodies of the declared expressions that they call are then resolved alike as
well, with the same bindings up to what is erased. -/

namespace EventQuery

open Resolution

mutual

/-- The expressions have the same form, down to places at which both give the same tree. -/
inductive Frame.Matches (frame : Frame) (base : Progress) (scope other : Scope) :
    Expression → Expression → Prop
  | settled {expression replacement tree} :
      frame.Settles base scope expression tree → frame.Settles base other replacement tree →
      Matches frame base scope other expression replacement
  | free {node} :
      (node.stream = none → scope.bindings.lookup node.path = none) →
      (node.stream = none → other.bindings.lookup node.path = none) →
      Matches frame base scope other (.property node) (.property node)
  | constant {position value} :
      Matches frame base scope other (.constant position value) (.constant position value)
  | table {node moved} :
      moved.erased = node.erased → MatchesAll frame base scope other node.keys moved.keys →
      Matches frame base scope other (.table node) (.table moved)
  | call {node moved} :
      moved.name = node.name →
      MatchesAll frame base scope other node.parameters moved.parameters →
      Matches frame base scope other (.call node) (.call moved)
  | math {operator left right left' right'} :
      Matches frame base scope other left left' → Matches frame base scope other right right' →
      Matches frame base scope other (.math operator left right) (.math operator left' right')
  | compare {operator left right left' right'} :
      Matches frame base scope other left left' → Matches frame base scope other right right' →
      Matches frame base scope other (.compare operator left right)
        (.compare operator left' right')
  | and {left right left' right'} :
      Matches frame base scope other left left' → Matches frame base scope other right right' →
      Matches frame base scope other (.and left right) (.and left' right')
  | or {left right left' right'} :
      Matches frame base scope other left left' → Matches frame base scope other right right' →
      Matches frame base scope other (.or left right) (.or left' right')
  | not {inner inner'} :
      Matches frame base scope other inner inner' →
      Matches frame base scope other (.not inner) (.not inner')

inductive Frame.MatchesAll (frame : Frame) (base : Progress) (scope other : Scope) :
    List Expression → List Expression → Prop
  | nil : MatchesAll frame base scope other [] []
  | cons {expression expression' rest rest'} :
      Matches frame base scope other expression expression' →
      MatchesAll frame base scope other rest rest' →
      MatchesAll frame base scope other (expression :: rest) (expression' :: rest')

end

mutual

theorem Frame.Matches.symm {frame : Frame} {base : Progress} {scope other : Scope}
    {expression expression' : Expression} :
    frame.Matches base scope other expression expression' →
      frame.Matches base other scope expression' expression
  | .settled here there => .settled there here
  | .free here there => .free there here
  | .constant => .constant
  | .table same each => .table same.symm each.symm
  | .call same each => .call same.symm each.symm
  | .math left right => .math left.symm right.symm
  | .compare left right => .compare left.symm right.symm
  | .and left right => .and left.symm right.symm
  | .or left right => .or left.symm right.symm
  | .not inner => .not inner.symm

theorem Frame.MatchesAll.symm {frame : Frame} {base : Progress} {scope other : Scope}
    {expressions expressions' : List Expression} :
    frame.MatchesAll base scope other expressions expressions' →
      frame.MatchesAll base other scope expressions' expressions
  | .nil => .nil
  | .cons head tail => .cons head.symm tail.symm

end

theorem Frame.MatchesAll.length_eq {frame : Frame} {base : Progress} {scope other : Scope}
    {expressions expressions' : List Expression}
    (each : frame.MatchesAll base scope other expressions expressions') :
    expressions'.length = expressions.length := by
  induction expressions generalizing expressions' with
  | nil =>
      cases each
      rfl
  | cons expression expressions ih =>
      cases each with
      | cons _ tail => rw [List.length_cons, List.length_cons, ih tail]

/-- What a parameter is bound to in the one scope, the expression that stands for it gives in the
other, and no other property is bound or replaced. -/
structure Frame.Fills (frame : Frame) (base : Progress) (scope : Scope)
    (values : String → Option Expression) (other : Scope) : Prop where
  bound : ∀ node tree, node.stream = none → scope.bindings.lookup node.path = some tree →
    frame.Settles base other ((Expression.property node).replaced values) tree
  free : ∀ path, scope.bindings.lookup path = none →
    values path = none ∧ other.bindings.lookup path = none

namespace Frame.Fills

variable {frame : Frame} {base : Progress} {scope other : Scope}
  {values : String → Option Expression} {vocabulary : Vocabulary}

theorem property (fills : frame.Fills base scope values other) (node : PropertyNode) :
    frame.Matches base scope other (.property node) ((Expression.property node).replaced values) := by
  cases named : node.stream with
  | some stream =>
      have kept : (Expression.property node).replaced values = .property node := by
        rw [Expression.replaced, named]
      rw [kept]
      exact .free (fun unnamed => by cases named.symm.trans unnamed)
        (fun unnamed => by cases named.symm.trans unnamed)
  | none =>
      cases found : scope.bindings.lookup node.path with
      | some tree => exact .settled (.of_bound named found) (fills.bound node tree named found)
      | none =>
          obtain ⟨unreplaced, unbound⟩ := fills.free node.path found
          have kept : (Expression.property node).replaced values = .property node := by
            rw [Expression.replaced, named]
            dsimp only
            rw [unreplaced, Option.getD_none]
          rw [kept]
          exact .free (fun _ => found) (fun _ => unbound)

mutual

theorem replaced (fills : frame.Fills base scope values other) : (expression : Expression) →
    vocabulary.Portable expression →
    frame.Matches base scope other expression (expression.replaced values)
  | .property node, _ => fills.property node
  | .constant _ _, _ => .constant
  | .table ⟨_, _, _, keys, _⟩, portable =>
      .table rfl (replacedAll fills keys (fun _ member => portable.part member))
  | .call ⟨_, _, _, parameters⟩, portable =>
      .call rfl (replacedAll fills parameters (fun _ member => portable.part member))
  | .math _ left right, portable => by
      obtain ⟨first, second⟩ := Vocabulary.portable_pair (fun _ member => portable.part member)
      exact .math (replaced fills left first) (replaced fills right second)
  | .compare _ left right, portable => by
      obtain ⟨first, second⟩ := Vocabulary.portable_pair (fun _ member => portable.part member)
      exact .compare (replaced fills left first) (replaced fills right second)
  | .and left right, portable => by
      obtain ⟨first, second⟩ := Vocabulary.portable_pair (fun _ member => portable.part member)
      exact .and (replaced fills left first) (replaced fills right second)
  | .or left right, portable => by
      obtain ⟨first, second⟩ := Vocabulary.portable_pair (fun _ member => portable.part member)
      exact .or (replaced fills left first) (replaced fills right second)
  | .not inner, portable =>
      .not (replaced fills inner (portable.part (List.mem_singleton_self _)))
  | .wildcard _ _, portable => absurd trivial (portable _ .self)
  | .substitution _, portable => absurd trivial (portable _ .self)
  | .prior _ _ _, portable => absurd trivial (portable _ .self)
  | .subquery _ _, portable => absurd trivial (portable _ .self)

theorem replacedAll (fills : frame.Fills base scope values other) :
    (expressions : List Expression) → (∀ part ∈ expressions, vocabulary.Portable part) →
    frame.MatchesAll base scope other expressions (EventQuery.replacedAll values expressions)
  | [], _ => .nil
  | expression :: rest, portable =>
      .cons (replaced fills expression (portable _ List.mem_cons_self))
        (replacedAll fills rest (fun part member => portable part (List.mem_cons_of_mem _ member)))

end

theorem same {expression : Expression} (fills : frame.Fills base scope (fun _ => none) other)
    (portable : vocabulary.Portable expression) :
    frame.Matches base scope other expression expression := by
  have replaced := fills.replaced expression portable
  rwa [Expression.replaced_none] at replaced

theorem refl (frame : Frame) (base : Progress) (scope : Scope) :
    frame.Fills base scope (fun _ => none) scope where
  bound node tree unnamed found := by
    rw [Expression.replaced_none]
    exact .of_bound unnamed found
  free _ unbound := ⟨rfl, unbound⟩

/-- The body of a declaration in two scopes, with arguments that are the same up to what is
erased. -/
theorem entering {name : String} {declaration : Declaration} {arguments others : List Resolved}
    (alike : List.Forall₂ (fun tree other => other.erased = tree.erased) arguments others) :
    frame.Fills base (scope.entering name declaration arguments) (fun _ => none)
      (other.entering name declaration others) where
  bound node tree unnamed found := by
    have related := lookup_related alike declaration.parameters node.path
    unfold Scope.entering at found
    rw [found] at related
    obtain ⟨otherTree, otherFound, same⟩ := related_of_some related
    have settles : frame.Settles base (other.entering name declaration others) (.property node)
        otherTree := .of_bound unnamed otherFound
    rw [Expression.replaced_none]
    exact settles.of_erased same
  free path unbound := by
    have related := lookup_related alike declaration.parameters path
    unfold Scope.entering at unbound ⊢
    refine ⟨rfl, ?_⟩
    cases found : (declaration.parameters.zip others).reverse.lookup path with
    | none => rfl
    | some otherTree =>
        rw [found] at related
        obtain ⟨tree, bound, _⟩ := some_of_related related
        cases bound.symm.trans unbound

end Frame.Fills

/-! ### Resolved side by side -/

/-- Portable expressions that match, the second in a scope in which nothing that it calls is being
expanded, unless it is in the first scope as well. -/
structure Frame.Parallel (frame : Frame) (base : Progress) (scope other : Scope)
    (expression expression' : Expression) : Prop where
  matching : frame.Matches base scope other expression expression'
  portable : (frame.vocabulary base.symbols).Portable expression
  otherPortable : (frame.vocabulary base.symbols).Portable expression'
  unbarred : ∀ name ∈ other.expanding, name ∉ scope.expanding →
    ¬ (frame.vocabulary base.symbols).Calls expression' name

namespace Frame.Parallel

variable {frame : Frame} {base : Progress} {scope other : Scope}
  {expression expression' part part' left left' right right' : Expression}

theorem inside (parallel : frame.Parallel base scope other expression expression')
    (matching : frame.Matches base scope other part part') (member : part ∈ expression.direct)
    (member' : part' ∈ expression'.direct) : frame.Parallel base scope other part part' where
  matching := matching
  portable := parallel.portable.part member
  otherPortable := parallel.otherPortable.part member'
  unbarred name barred free := by
    rintro ⟨node, uses, named⟩
    exact parallel.unbarred name barred free ⟨node, .inside member' uses, named⟩

theorem pair (parallel : frame.Parallel base scope other expression expression')
    (first : frame.Matches base scope other left left')
    (second : frame.Matches base scope other right right')
    (direct : expression.direct = [left, right]) (direct' : expression'.direct = [left', right']) :
    frame.Parallel base scope other left left' ∧ frame.Parallel base scope other right right' := by
  constructor
  · exact parallel.inside first (by simp [direct]) (by simp [direct'])
  · exact parallel.inside second (by simp [direct]) (by simp [direct'])

theorem each (parallel : frame.Parallel base scope other expression expression')
    {expressions expressions' : List Expression}
    (matching : frame.MatchesAll base scope other expressions expressions')
    (inner : ∀ part ∈ expressions, part ∈ expression.direct)
    (inner' : ∀ part ∈ expressions', part ∈ expression'.direct) :
    List.Forall₂ (fun item item' => frame.Parallel base item.1 item'.1 item.2 item'.2)
      (scope.each expressions) (other.each expressions') := by
  induction expressions generalizing expressions' with
  | nil =>
      cases matching
      exact .nil
  | cons head rest ih =>
      cases matching with
      | cons first tail =>
          refine .cons ?_ (ih tail ?_ ?_)
          · exact parallel.inside first (inner _ List.mem_cons_self) (inner' _ List.mem_cons_self)
          · intro part member
            exact inner part (List.mem_cons_of_mem _ member)
          · intro part member
            exact inner' part (List.mem_cons_of_mem _ member)

theorem body {node moved : FunctionCall} {declaration : Declaration}
    {arguments others : List Resolved}
    (parallel : frame.Parallel base scope other (.call node) (.call moved))
    (named : moved.name = node.name)
    (meaning : (frame.vocabulary base.symbols).meaning? moved = some (.declared declaration))
    (alike : List.Forall₂ (fun tree other => other.erased = tree.erased) arguments others) :
    frame.Parallel base (scope.entering node.name declaration arguments)
      (other.entering moved.name declaration others) declaration.body declaration.body where
  matching := by
    rw [named]
    exact (Fills.entering alike).same (parallel.otherPortable.body meaning)
  portable := parallel.otherPortable.body meaning
  otherPortable := parallel.otherPortable.body meaning
  unbarred name barred free := by
    rintro ⟨call, uses, called⟩
    unfold Scope.entering at barred free
    rcases List.mem_cons.mp barred with rfl | outer
    · rw [named] at free
      exact free List.mem_cons_self
    · exact parallel.unbarred name outer (fun inner => free (List.mem_cons_of_mem _ inner))
        ⟨call, .body meaning uses, called⟩

theorem unexpanded {node moved : FunctionCall}
    (parallel : frame.Parallel base scope other (.call node) (.call moved))
    (named : moved.name = node.name) (free : node.name ∉ scope.expanding) :
    moved.name ∉ other.expanding := by
  intro barred
  rw [← named] at free
  exact parallel.unbarred _ barred free ⟨moved, .self, rfl⟩

theorem refl (portable : (frame.vocabulary base.symbols).Portable expression) :
    frame.Parallel base scope scope expression expression where
  matching := (Fills.refl frame base scope).same portable
  portable := portable
  otherPortable := portable
  unbarred _ barred free := absurd barred free

end Frame.Parallel

section

variable {frame : Frame} {scope other : Scope} {base before moved after : Progress}
  {expression expression' : Expression} {tree found : Resolved}

private theorem Frame.Settles.reproduced (here : frame.Settles base scope expression tree)
    (there : frame.Settles base other expression' tree) (similar : frame.Similar base before)
    (otherSimilar : frame.Similar base moved)
    (derived : Resolves frame scope expression before found after) :
    ∃ found' after', Resolves frame other expression' moved found' after' ∧
      found'.erased = found.erased := by
  obtain ⟨found', after', resolved, alike⟩ := there moved otherSimilar
  exact ⟨found', after', resolved, alike.trans (here.erased_eq similar derived).symm⟩

private theorem Frame.reproduced_pair (bound : frame.Bound) {between : Progress}
    {left right left' right' : Expression} {leftTree rightTree : Resolved}
    (leftHere : Resolves frame scope left before leftTree between)
    (parallels : frame.Parallel base scope other left left' ∧
      frame.Parallel base scope other right right')
    (similar : frame.Similar base before) (otherSimilar : frame.Similar base moved)
    (leftReproduced : ∀ {moved : Progress}, frame.Parallel base scope other left left' →
      frame.Similar base before → frame.Similar base moved →
      ∃ tree' after', Resolves frame other left' moved tree' after' ∧
        tree'.erased = leftTree.erased)
    (rightReproduced : ∀ {moved : Progress}, frame.Parallel base scope other right right' →
      frame.Similar base between → frame.Similar base moved →
      ∃ tree' after', Resolves frame other right' moved tree' after' ∧
        tree'.erased = rightTree.erased) :
    ∃ leftTree' rightTree' between' after', Resolves frame other left' moved leftTree' between' ∧
      Resolves frame other right' between' rightTree' after' ∧
      leftTree'.erased = leftTree.erased ∧ rightTree'.erased = rightTree.erased := by
  obtain ⟨leftParallel, rightParallel⟩ := parallels
  obtain ⟨leftTree', between', leftThere, leftSame⟩ :=
    leftReproduced leftParallel similar otherSimilar
  have similarBetween := leftHere.similar bound leftParallel.portable similar
  have otherSimilarBetween := leftThere.similar bound leftParallel.otherPortable otherSimilar
  obtain ⟨rightTree', after', rightThere, rightSame⟩ :=
    rightReproduced rightParallel similarBetween otherSimilarBetween
  exact ⟨leftTree', rightTree', between', after', leftThere, rightThere, leftSame, rightSame⟩

end

-- By recursion on the derivation: the body of a declared expression is no part of its call.
mutual

/-- What is resolved in the one scope is resolved in the other, to the same tree up to what is
erased. -/
theorem Resolves.reproduced {frame : Frame} (bound : frame.Bound) {base before after : Progress}
    {scope : Scope} {expression : Expression} {tree : Resolved} {moved : Progress} {other : Scope}
    {expression' : Expression} :
    Resolves frame scope expression before tree after →
      frame.Parallel base scope other expression expression' → frame.Similar base before →
      frame.Similar base moved →
      ∃ tree' after', Resolves frame other expression' moved tree' after' ∧
        tree'.erased = tree.erased
  | .constant, parallel, similar, otherSimilar => by
      cases parallel.matching with
      | settled here there => exact here.reproduced there similar otherSimilar .constant
      | constant => exact ⟨_, _, .constant, rfl⟩
  | .property run, parallel, similar, otherSimilar => by
      cases parallel.matching with
      | settled here there => exact here.reproduced there similar otherSimilar (.property run)
      | free here there =>
          obtain ⟨later, again⟩ := similar.resolveProperty bound here there otherSimilar run
          exact ⟨_, later, .property again, rfl⟩
  | .wildcard _, parallel, _, _ => absurd trivial (parallel.portable _ .self)
  | .substitution _, parallel, _, _ => absurd trivial (parallel.portable _ .self)
  | .prior _, parallel, _, _ => absurd trivial (parallel.portable _ .self)
  | .subquery _ _, parallel, _, _ => absurd trivial (parallel.portable _ .self)
  | .table known paired given checked typed, parallel, similar, otherSimilar => by
      cases parallel.matching with
      | settled here there =>
          exact here.reproduced there similar otherSimilar (.table known paired given checked typed)
      | @table _ node same each =>
          obtain ⟨trees, later, givenThere, alike⟩ := given.reproduced bound
            (parallel.each each (fun _ member => member) (fun _ member => member)) similar
            otherSimilar
          obtain ⟨keys, checkedThere, sameKeys⟩ := @CheckedKeys.of_erased _ node _ _ _ _ _ checked
            alike
          rw [← (TableAccess.erased_eq_iff.mp same).1] at known
          rw [← each.length_eq] at paired
          refine ⟨_, _, .table known paired givenThere checkedThere
            (Frame.accessedType_of_erased same typed), ?_⟩
          rw [Resolved.erased, Resolved.erased, same, sameKeys]
  | .declared declared arity free given inner, parallel, similar, otherSimilar => by
      -- Inside, only the bindings differ, so the body is beside itself with the arguments bound.
      cases parallel.matching with
      | settled here there =>
          exact here.reproduced there similar otherSimilar (.declared declared arity free given inner)
      | @call _ node named each =>
          have items := parallel.each each (fun _ member => member) (fun _ member => member)
          obtain ⟨arguments, between, givenThere, alike⟩ :=
            given.reproduced bound items similar otherSimilar
          rw [similar.declaration?_eq, ← named] at declared
          have bodies := parallel.body named (Frame.meaning?_of_declared declared) alike
          have similarInside := given.similar bound
            (Vocabulary.portable_each (fun _ member => parallel.portable.part member)) similar
          have otherSimilarInside := givenThere.similar bound
            (Vocabulary.portable_each (fun _ member => parallel.otherPortable.part member))
            otherSimilar
          obtain ⟨body, later, innerThere, same⟩ :=
            inner.reproduced bound bodies similarInside otherSimilarInside
          rw [← otherSimilar.declaration?_eq] at declared
          rw [← each.length_eq] at arity
          refine ⟨_, later, .declared declared arity (parallel.unexpanded named free) givenThere
            innerThere, ?_⟩
          rw [Resolved.erased, Resolved.erased, same, named]
  | .script undeclared called given, parallel, similar, otherSimilar => by
      cases parallel.matching with
      | settled here there =>
          exact here.reproduced there similar otherSimilar (.script undeclared called given)
      | @call _ node named each =>
          have items := parallel.each each (fun _ member => member) (fun _ member => member)
          obtain ⟨arguments, later, givenThere, alike⟩ :=
            given.reproduced bound items similar otherSimilar
          rw [similar.declaration?_eq, ← named, ← otherSimilar.declaration?_eq] at undeclared
          rw [similar.script?_eq, ← named, ← each.length_eq, ← otherSimilar.script?_eq] at called
          refine ⟨_, later, .script undeclared called givenThere, ?_⟩
          rw [Resolved.erased, Resolved.erased, Resolved.erasedAll_of_alike alike]
  | .aggregation undeclared unscripted known _ _ _ _ _ _ _, parallel, similar, _ => by
      have meaning := Frame.meaning?_of_family undeclared unscripted known
      rw [similar.vocabulary] at meaning
      exact absurd meaning (parallel.portable _ .self)
  | .math left right, parallel, similar, otherSimilar => by
      cases parallel.matching with
      | settled here there =>
          exact here.reproduced there similar otherSimilar (.math left right)
      | math first second =>
          obtain ⟨_, _, _, later, leftThere, rightThere, leftSame, rightSame⟩ :=
            Frame.reproduced_pair bound left (parallel.pair first second rfl rfl) similar
              otherSimilar (left.reproduced bound) (right.reproduced bound)
          refine ⟨_, later, .math leftThere rightThere, ?_⟩
          rw [Resolved.erased, Resolved.erased, leftSame, rightSame]
  | .compare left right, parallel, similar, otherSimilar => by
      cases parallel.matching with
      | settled here there =>
          exact here.reproduced there similar otherSimilar (.compare left right)
      | compare first second =>
          obtain ⟨_, _, _, later, leftThere, rightThere, leftSame, rightSame⟩ :=
            Frame.reproduced_pair bound left (parallel.pair first second rfl rfl) similar
              otherSimilar (left.reproduced bound) (right.reproduced bound)
          refine ⟨_, later, .compare leftThere rightThere, ?_⟩
          rw [Resolved.erased, Resolved.erased, leftSame, rightSame]
  | .and left right, parallel, similar, otherSimilar => by
      cases parallel.matching with
      | settled here there =>
          exact here.reproduced there similar otherSimilar (.and left right)
      | and first second =>
          obtain ⟨_, _, _, later, leftThere, rightThere, leftSame, rightSame⟩ :=
            Frame.reproduced_pair bound left (parallel.pair first second rfl rfl) similar
              otherSimilar (left.reproduced bound) (right.reproduced bound)
          refine ⟨_, later, .and leftThere rightThere, ?_⟩
          rw [Resolved.erased, Resolved.erased, leftSame, rightSame]
  | .or left right, parallel, similar, otherSimilar => by
      cases parallel.matching with
      | settled here there =>
          exact here.reproduced there similar otherSimilar (.or left right)
      | or first second =>
          obtain ⟨_, _, _, later, leftThere, rightThere, leftSame, rightSame⟩ :=
            Frame.reproduced_pair bound left (parallel.pair first second rfl rfl) similar
              otherSimilar (left.reproduced bound) (right.reproduced bound)
          refine ⟨_, later, .or leftThere rightThere, ?_⟩
          rw [Resolved.erased, Resolved.erased, leftSame, rightSame]
  | .not inner, parallel, similar, otherSimilar => by
      cases parallel.matching with
      | settled here there => exact here.reproduced there similar otherSimilar (.not inner)
      | not matching =>
          have innerParallel := parallel.inside matching (List.mem_singleton_self _)
            (List.mem_singleton_self _)
          obtain ⟨innerTree, later, innerThere, same⟩ :=
            inner.reproduced bound innerParallel similar otherSimilar
          refine ⟨_, later, .not innerThere, ?_⟩
          rw [Resolved.erased, Resolved.erased, same]

theorem ResolvesAll.reproduced {frame : Frame} (bound : frame.Bound)
    {base before after : Progress} {items : List (Scope × Expression)} {trees : List Resolved}
    {moved : Progress} {items' : List (Scope × Expression)} :
    ResolvesAll frame items before trees after →
      List.Forall₂ (fun item item' => frame.Parallel base item.1 item'.1 item.2 item'.2)
        items items' →
      frame.Similar base before → frame.Similar base moved →
      ∃ trees' after', ResolvesAll frame items' moved trees' after' ∧
        List.Forall₂ (fun tree tree' => tree'.erased = tree.erased) trees trees'
  | .nil, parallel, _, _ => by
      cases parallel
      exact ⟨_, _, .nil, .nil⟩
  | .cons head tail, parallel, similar, otherSimilar => by
      cases parallel with
      | cons first rest =>
          obtain ⟨tree, between, headThere, same⟩ :=
            head.reproduced bound first similar otherSimilar
          obtain ⟨trees, later, tailThere, alike⟩ := tail.reproduced bound rest
            (head.similar bound first.portable similar)
            (headThere.similar bound first.otherPortable otherSimilar)
          exact ⟨_, later, .cons headThere tailThere, .cons same alike⟩

end

end EventQuery
