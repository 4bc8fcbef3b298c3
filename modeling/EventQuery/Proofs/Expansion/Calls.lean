import EventQuery.Proofs.Expansion.Parallels

set_option autoImplicit false

/-! A call of a declared expression is its body with the arguments in the place of the parameters:
no name in an argument is caught by a parameter, neither of the declaration nor of those that its
body calls, and no other name in the body is bound by a call around it. -/

namespace EventQuery

open Resolution

section

variable {frame : Frame} (bound : frame.Bound) {scope : Scope} {base before after : Progress}

include bound

theorem Resolves.settles {expression : Expression} {tree : Resolved}
    (derived : Resolves frame scope expression before tree after)
    (portable : (frame.vocabulary base.symbols).Portable expression)
    (similar : frame.Similar base before) : frame.Settles base scope expression tree := by
  intro progress otherSimilar
  exact derived.reproduced bound (.refl portable) similar otherSimilar

theorem ResolvesAll.settles {expressions : List Expression} {trees : List Resolved}
    (derived : ResolvesAll frame (scope.each expressions) before trees after)
    (portable : ∀ part ∈ expressions, (frame.vocabulary base.symbols).Portable part)
    (similar : frame.Similar base before) :
    List.Forall₂ (frame.Settles base scope) expressions trees := by
  induction expressions generalizing before trees with
  | nil =>
      cases derived
      exact .nil
  | cons expression expressions ih =>
      have here := portable expression List.mem_cons_self
      cases derived with
      | cons head tail =>
          refine .cons (head.settles bound here similar) (ih tail ?_ ?_)
          · intro part member
            exact portable part (List.mem_cons_of_mem _ member)
          · exact head.similar bound here similar

theorem resolvesAll_of_each {expressions : List Expression}
    (each : ∀ part ∈ expressions, ∃ tree, frame.Settles base scope part tree)
    (portable : ∀ part ∈ expressions, (frame.vocabulary base.symbols).Portable part)
    (similar : frame.Similar base before) :
    ∃ trees after, ResolvesAll frame (scope.each expressions) before trees after := by
  induction expressions generalizing before with
  | nil => exact ⟨[], before, .nil⟩
  | cons expression expressions ih =>
      obtain ⟨tree, settles⟩ := each expression List.mem_cons_self
      obtain ⟨found, between, here, _⟩ := settles before similar
      have there := here.similar bound (portable expression List.mem_cons_self) similar
      obtain ⟨trees, after, rest⟩ := ih
        (fun part member => each part (List.mem_cons_of_mem _ member))
        (fun part member => portable part (List.mem_cons_of_mem _ member)) there
      exact ⟨found :: trees, after, .cons here rest⟩

end

namespace Frame

variable {frame : Frame} {scope : Scope} {base before after : Progress} {node : FunctionCall}
  {declaration : Declaration} {arguments : List Resolved}

theorem Fills.of_call (unbound : scope.bindings = [])
    (settle : List.Forall₂ (frame.Settles base scope) node.parameters arguments) :
    frame.Fills base (scope.entering node.name declaration arguments)
      (fun path => (node.matched declaration).lookup path) scope where
  bound property tree unnamed found := by
    have related := lookup_related settle declaration.parameters property.path
    unfold Scope.entering at found
    rw [found] at related
    obtain ⟨argument, matched, settles⟩ := some_of_related related
    have given : (node.matched declaration).lookup property.path = some argument := matched
    rw [Expression.replaced, unnamed]
    dsimp only
    rw [given, Option.getD_some]
    exact settles
  free path free := by
    have related := lookup_related settle declaration.parameters path
    unfold Scope.entering at free
    constructor
    · cases matched : (node.matched declaration).lookup path with
      | none => rfl
      | some argument =>
          have given : (declaration.parameters.zip node.parameters).reverse.lookup path =
            some argument := matched
          rw [given] at related
          obtain ⟨tree, found, _⟩ := related_of_some related
          cases found.symm.trans free
    · rw [unbound]
      rfl

/-- The body of the declaration with the arguments of a call in the place of the parameters. -/
def expansion (declaration : Declaration) (node : FunctionCall) : Expression :=
  declaration.body.replaced (fun path => (node.matched declaration).lookup path)

theorem portable_expansion {vocabulary : Vocabulary}
    (portable : vocabulary.Portable (.call node))
    (meaning : vocabulary.meaning? node = some (.declared declaration)) :
    vocabulary.Portable (expansion declaration node) := by
  refine (portable.body meaning).replaced ?_
  intro path argument matched
  obtain ⟨earlier, later, split, _⟩ := List.lookup_eq_some_iff.mp matched
  have pair := List.of_mem_zip (List.mem_reverse.mp (mem_of_split split))
  exact portable.part pair.2

section

variable (bound : frame.Bound) (unbound : scope.bindings = []) (outside : scope.expanding = [])
  (declared : frame.declaration? before.symbols node.name = some declaration)
  (portable : (frame.vocabulary before.symbols).Portable (.call node))
  {tree : Resolved}

include bound unbound outside declared portable

/-- A call that is resolved gives what its expansion gives. -/
theorem resolves_expansion (derived : Resolves frame scope (.call node) before tree after) :
    ∃ body found later, tree = .declared node.name body ∧
      Resolves frame scope (expansion declaration node) before found later ∧
      found.erased = body.erased := by
  have meaning := Frame.meaning?_of_declared declared
  cases derived with
  | declared again _ _ given inner =>
      cases declared.symm.trans again
      have parts := (Vocabulary.portable_iff.mp portable).2.1
      have settle := given.settles bound parts (.refl frame before)
      have body := portable.body meaning
      have parallel : frame.Parallel before (scope.entering node.name declaration _) scope
          declaration.body (expansion declaration node) := {
        matching := (Fills.of_call unbound settle).replaced _ body
        portable := body
        otherPortable := portable_expansion portable meaning
        unbarred := by
          intro name barred
          rw [outside] at barred
          cases barred }
      have entered := given.similar bound (Vocabulary.portable_each parts) (.refl frame before)
      obtain ⟨found, later, resolved, same⟩ :=
        inner.reproduced bound parallel entered (.refl frame before)
      exact ⟨_, found, later, rfl, resolved, same⟩
  | script undeclared _ _ => cases declared.symm.trans undeclared
  | aggregation undeclared _ _ _ _ _ _ _ _ _ => cases declared.symm.trans undeclared

/-- An expansion that is resolved gives what the call gives, if all arguments are resolved. -/
theorem resolves_call_of_expansion
    (arity : declaration.parameters.length = node.parameters.length)
    (derived : Resolves frame scope (expansion declaration node) before tree after)
    (each : ∀ argument ∈ node.parameters, ∃ tree after,
      Resolves frame scope argument before tree after) :
    ∃ body later, Resolves frame scope (.call node) before (.declared node.name body) later ∧
      body.erased = tree.erased := by
  have meaning := Frame.meaning?_of_declared declared
  have parts := (Vocabulary.portable_iff.mp portable).2.1
  have body := portable.body meaning
  have settled : ∀ argument ∈ node.parameters, ∃ tree, frame.Settles before scope argument tree := by
    intro argument member
    obtain ⟨value, finish, here⟩ := each argument member
    exact ⟨value, here.settles bound (parts argument member) (.refl frame before)⟩
  obtain ⟨arguments, between, given⟩ := resolvesAll_of_each bound settled parts (.refl frame before)
  have settle := given.settles bound parts (.refl frame before)
  have parallel : frame.Parallel before scope (scope.entering node.name declaration arguments)
      (expansion declaration node) declaration.body := {
    matching := ((Fills.of_call unbound settle).replaced _ body).symm
    portable := portable_expansion portable meaning
    otherPortable := body
    unbarred := by
      intro name barred _
      unfold Scope.entering at barred
      rw [outside] at barred
      cases List.mem_singleton.mp barred
      -- A body that calls itself would not have been resolved.
      exact derived.not_calls_of_replaced declared }
  have entered := given.similar bound (Vocabulary.portable_each parts) (.refl frame before)
  obtain ⟨found, later, inner, same⟩ :=
    derived.reproduced bound parallel (.refl frame before) entered
  have free : node.name ∉ scope.expanding := by
    rw [outside]
    exact List.not_mem_nil
  exact ⟨found, later, .declared declared arity free given inner, same⟩

end

/-- Outside of any expansion, a call of a declared expression gives what the body of the declaration
gives with the arguments in the place of the parameters, up to places in the text and the nodes of
table accesses, if nothing that is used on the way depends on where it stands or is gathered: if
the call is resolved, the body with the arguments is resolved to the same tree; if the body with
the arguments is resolved and so is every argument, the call is resolved. -/
theorem call_resolves_as_expansion (bound : frame.Bound) (unbound : scope.bindings = [])
    (outside : scope.expanding = [])
    (declared : frame.declaration? before.symbols node.name = some declaration)
    (arity : declaration.parameters.length = node.parameters.length)
    (portable : (frame.vocabulary before.symbols).Portable (.call node)) :
    (∀ fuel tree after,
      Yields (resolve .spent fuel frame scope (.call node)) before tree after →
      ∃ body fuel' found later, tree = .declared node.name body ∧
        Yields (resolve .spent fuel' frame scope (expansion declaration node)) before found later ∧
        found.erased = body.erased) ∧
    ∀ fuel found after,
      Yields (resolve .spent fuel frame scope (expansion declaration node)) before found after →
      (∀ argument ∈ node.parameters, ∃ fuel tree after,
        Yields (resolve .spent fuel frame scope argument) before tree after) →
      ∃ body fuel' later,
        Yields (resolve .spent fuel' frame scope (.call node)) before (.declared node.name body)
          later ∧ body.erased = found.erased := by
  constructor
  · intro fuel tree after run
    obtain ⟨body, found, later, rfl, derived, same⟩ :=
      resolves_expansion bound unbound outside declared portable (resolve_sound fuel run)
    obtain ⟨enough, again⟩ := derived.yields
    exact ⟨body, enough, found, later, rfl, again, same⟩
  · intro fuel found after run each
    have resolved : ∀ argument ∈ node.parameters, ∃ tree after,
        Resolves frame scope argument before tree after := by
      intro argument member
      obtain ⟨fuel, tree, after, run⟩ := each argument member
      exact ⟨tree, after, resolve_sound fuel run⟩
    obtain ⟨body, later, derived, same⟩ := resolves_call_of_expansion bound unbound outside declared
      portable arity (resolve_sound fuel run) resolved
    obtain ⟨enough, again⟩ := derived.yields
    exact ⟨body, enough, later, again, same⟩

/-- Events with two numbers, and two declared expressions that exchange their parameters. -/
def exchanging : Frame where
  services :=
    { Services.initial with
      registry := ⟨[.map "S" [.scalar "x" .int, .scalar "y" .int]]⟩
      declarations :=
        [("f", ⟨"f", ["x", "y"], .call ⟨none, "g", false,
          [.property ⟨none, none, "y"⟩, .property ⟨none, none, "x"⟩]⟩⟩),
        ("g", ⟨"g", ["y", "x"], .math .subtract (.property ⟨none, none, "y"⟩)
          (.property ⟨none, none, "x"⟩)⟩)] }
  order := List.range
  statement := "s"
  isSubquery := false
  streams := [⟨"S", .map "S" [.scalar "x" .int, .scalar "y" .int]⟩]

def exchangedCall : FunctionCall :=
  ⟨none, "f", false, [.property ⟨none, none, "y"⟩, .property ⟨none, none, "x"⟩]⟩

private theorem portable_exchangedCall :
    (exchanging.vocabulary .empty).Portable (.call exchangedCall) := by
  have parts {vocabulary : Vocabulary} {expression : Expression} {first second : String}
      (direct : expression.direct =
        [.property ⟨none, none, first⟩, .property ⟨none, none, second⟩]) :
      ∀ part ∈ expression.direct, vocabulary.Portable part :=
    @Vocabulary.portable_of_properties _ _ [⟨none, none, first⟩, ⟨none, none, second⟩] direct
  refine Vocabulary.portable_iff.mpr ⟨?_, parts rfl, ?_⟩
  · intro situated
    cases situated
  · intro node declaration same meaning
    cases same
    cases meaning
    refine Vocabulary.portable_iff.mpr ⟨?_, parts rfl, ?_⟩
    · intro situated
      cases situated
    · intro node declaration same meaning
      cases same
      cases meaning
      refine Vocabulary.portable_iff.mpr ⟨id, parts rfl, ?_⟩
      intro node declaration same
      cases same

/-- The names of the properties are those of the parameters, and each means its own. -/
theorem exchangedCall_resolves_as_expansion :
    exchanging.Bound ∧ (exchanging.vocabulary .empty).Portable (.call exchangedCall) ∧
      ∃ body after fuel found later,
        Yields (resolve .spent 5 exchanging (.ofClause .select) (.call exchangedCall))
          ⟨.empty, .empty, [], none, .empty⟩ (.declared "f" body) after ∧
        Yields (resolve .spent fuel exchanging (.ofClause .select) (.call ⟨none, "g", false,
          [.property ⟨none, none, "x"⟩, .property ⟨none, none, "y"⟩]⟩))
          ⟨.empty, .empty, [], none, .empty⟩ found later ∧
        found.erased = body.erased ∧
        body.erased = .declared "g" (.math .subtract
          (.property 0 "x" ⟨.mapEntry "x" none, .int, none⟩)
          (.property 0 "y" ⟨.mapEntry "y" none, .int, none⟩) none .object) := by
  have bound : exchanging.Bound := by
    intro stream member
    cases List.mem_singleton.mp member
    rfl
  have resolved : ∃ body after,
      Yields (resolve .spent 5 exchanging (.ofClause .select) (.call exchangedCall))
        ⟨.empty, .empty, [], none, .empty⟩ (.declared "f" body) after ∧
      body.erased = .declared "g" (.math .subtract
        (.property 0 "x" ⟨.mapEntry "x" none, .int, none⟩)
        (.property 0 "y" ⟨.mapEntry "y" none, .int, none⟩) none .object) :=
    ⟨_, _, rfl, rfl⟩
  obtain ⟨body, after, run, shape⟩ := resolved
  have both := @call_resolves_as_expansion exchanging (.ofClause .select)
    ⟨.empty, .empty, [], none, .empty⟩ exchangedCall _ bound rfl rfl rfl rfl portable_exchangedCall
  obtain ⟨_, fuel, found, later, same, again, alike⟩ := both.1 _ _ _ run
  cases same
  exact ⟨bound, portable_exchangedCall, body, after, fuel, found, later, run, again, alike, shape⟩

end Frame

end EventQuery
