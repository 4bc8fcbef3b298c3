import EventQuery.Aggregation.Recording
import EventQuery.Proofs.Nesting.Reflection
import Mathlib.Logic.Relation

set_option autoImplicit false

/-! Which statements hand an aggregation call to another one. A call that stands in a parameter of
another call is refused, also when it comes from the body of a declared expression; but an
argument of a declared expression is resolved where the expression is called, so an aggregation
call in it passes unseen into a parameter in the body. -/

namespace EventQuery

open Resolution

namespace Visit

/-- On the way from the visit, a parameter that holds an aggregation call is handed to an
aggregation call. -/
def Spoiled (visit : Visit) : Prop :=
  ∃ call parameter tree after, Relation.ReflTransGen Leads visit call ∧ call.Passes parameter ∧
    Resolves parameter.frame parameter.scope parameter.expression parameter.progress tree after ∧
    tree.Aggregates

/-- What the text says of it: the expression nests aggregation calls, or hands on a bound value
that aggregates. -/
def Nests (visit : Visit) : Prop :=
  (visit.frame.vocabulary visit.progress.symbols).Nests visit.expression ∨ ∃ name bound,
    (visit.frame.vocabulary visit.progress.symbols).Hands visit.expression name ∧
      visit.scope.bindings.lookup name = some bound ∧ bound.Aggregates

end Visit

variable {frame : Frame} {scope inner : Scope} {expression part : Expression}
  {before between after : Progress} {tree : Resolved}

theorem Expression.mem_direct_of_mem_operands (member : part ∈ expression.operands) :
    part ∈ expression.direct := by
  cases expression with
  | table node => cases member
  | call node => cases member
  | _ => exact member

private theorem split_each {expressions : List Expression} {trees : List Resolved}
    (derived : ResolvesAll frame (scope.each expressions) before trees after)
    (member : part ∈ expressions) :
    ∃ done rest earlier tree later between further,
      expressions = done ++ part :: rest ∧ trees = earlier ++ tree :: later ∧
      ResolvesAll frame (scope.each done) before earlier between ∧
      Resolves frame scope part between tree further := by
  obtain ⟨done, rest, rfl⟩ := List.append_of_mem member
  unfold Scope.each at derived
  rw [List.map_append, List.map_cons] at derived
  obtain ⟨earlier, tree, later, between, further, same, first, here⟩ := derived.split
  exact ⟨done, rest, earlier, tree, later, between, further, rfl, same, first, here⟩

/-! ### From visits to the text -/

namespace Visit

private theorem nests_of_direct (member : part ∈ expression.direct)
    (bindings : inner.bindings = scope.bindings) (grown : before.Extends between)
    (nests : Visit.Nests ⟨frame, inner, part, between⟩) :
    Visit.Nests ⟨frame, scope, expression, before⟩ := by
  unfold Visit.Nests at nests ⊢
  dsimp only at nests ⊢
  rw [Frame.vocabulary_of_extends grown, bindings] at nests
  rcases nests with own | ⟨name, bound, hands, known, held⟩
  · exact .inl (.inside member own)
  · exact .inr ⟨name, bound, .inside member hands, known, held⟩

private theorem nests_of_body {node : FunctionCall} {declaration : Declaration}
    {arguments : List Resolved}
    (declared : frame.declaration? before.symbols node.name = some declaration)
    (given : ResolvesAll frame (scope.each node.parameters) before arguments between)
    (nests : Visit.Nests ⟨frame, scope.entering node.name declaration arguments, declaration.body,
      between⟩) : Visit.Nests ⟨frame, scope, .call node, before⟩ := by
  have meaning := Frame.meaning?_of_declared declared
  have reflect := given.reflects_each
  unfold Visit.Nests at nests ⊢
  dsimp only at nests ⊢
  rw [given.vocabulary_eq] at nests
  rcases nests with own | ⟨name, bound, hands, known, held⟩
  · exact .inl (.body meaning own)
  · obtain ⟨argument, matched, reflects⟩ := Vocabulary.argument_of_bound reflect known
    rcases reflects.aggregates.mp held with own | ⟨other, value, places, found, holds⟩
    · exact .inl (.handed meaning hands matched own)
    · exact .inr ⟨other, value, .body meaning hands matched places, found, holds⟩

private theorem nests_of_clause {position : Option Position} {statement : Statement}
    {visit : Visit} (enters : Enters frame.services frame.order true statement .empty
      before.memory visit)
    (nests : visit.Nests) : Visit.Nests ⟨frame, scope, .subquery position statement, before⟩ := by
  cases enters with
  | @intro streams done scope expression rest trees between _ split derived =>
      have member := mem_of_split split
      obtain ⟨clause, rfl⟩ := Statement.scope_of_mem_items member
      unfold Visit.Nests at nests
      dsimp only at nests
      rw [derived.vocabulary_eq] at nests
      rcases nests with own | ⟨_, _, _, known, _⟩
      · exact .inl (.subquery member own)
      · cases known

theorem Leads.nests {visit next : Visit} (leads : visit.Leads next) (nests : next.Nests) :
    visit.Nests := by
  cases leads with
  | operand split derived =>
      have member := Expression.mem_direct_of_mem_operands (mem_of_split split)
      exact nests_of_direct member rfl derived.extends nests
  | key _ _ split _ derived _ =>
      exact nests_of_direct (mem_of_split split) rfl derived.extends nests
  | argument _ _ _ split derived =>
      exact nests_of_direct (mem_of_split split) rfl derived.extends nests
  | body declared _ _ derived => exact nests_of_body declared derived nests
  | scriptArgument _ _ split derived =>
      exact nests_of_direct (mem_of_split split) rfl derived.extends nests
  | parameter passes =>
      obtain ⟨_, _, _, _, _, _, created, split, derived, _⟩ := passes
      have grown := (Frame.extends_of_resolveForge created).trans derived.extends
      exact nests_of_direct (mem_of_split split) rfl grown nests
  | clause _ enters => exact nests_of_clause enters nests

/-- A call nests if a parameter that is handed to it aggregates: within the parameter the
aggregation call can only come from a bound value. -/
theorem Passes.nests {call parameter : Visit} (passes : call.Passes parameter)
    (derived : Resolves parameter.frame parameter.scope parameter.expression parameter.progress
      tree after) (aggregates : tree.Aggregates) : call.Nests := by
  cases passes with
  | intro undeclared unscripted known _ _ _ created split earlier _ =>
      have grown := (Frame.extends_of_resolveForge created).trans earlier.extends
      have reflects := derived.reflects
      rw [Frame.vocabulary_of_extends grown] at reflects
      rcases reflects.aggregates.mp aggregates with own | ⟨name, bound, places, found, held⟩
      · exact absurd own (reflects.flat rfl)
      · have meaning := Frame.meaning?_of_family undeclared unscripted known
        exact .inr ⟨name, bound, .parameter meaning (mem_of_split split) places, found, held⟩

theorem Spoiled.nests {visit : Visit} (spoiled : visit.Spoiled) : visit.Nests := by
  obtain ⟨call, parameter, tree, after, reaches, passes, derived, aggregates⟩ := spoiled
  have here := passes.nests derived aggregates
  induction reaches using Relation.ReflTransGen.head_induction_on with
  | refl => exact here
  | head leads _ ih => exact leads.nests ih

/-! ### From the text to visits -/

theorem Leads.spoiled {visit next : Visit} (leads : visit.Leads next) (spoiled : next.Spoiled) :
    visit.Spoiled := by
  obtain ⟨call, parameter, tree, after, reaches, rest⟩ := spoiled
  exact ⟨call, parameter, tree, after, .head leads reaches, rest⟩

end Visit

theorem Resolves.each_operand (derived : Resolves frame scope expression before tree after)
    (member : part ∈ expression.operands) :
    ∃ trees, ResolvesAll frame (scope.each expression.operands) before trees after := by
  cases derived with
  | math left right => exact ⟨_, .cons left (.cons right .nil)⟩
  | compare left right => exact ⟨_, .cons left (.cons right .nil)⟩
  | and left right => exact ⟨_, .cons left (.cons right .nil)⟩
  | or left right => exact ⟨_, .cons left (.cons right .nil)⟩
  | not inner => exact ⟨_, .cons inner .nil⟩
  | _ => cases member

private theorem leads_to_operand (derived : Resolves frame scope expression before tree after)
    (member : part ∈ expression.operands) :
    ∃ between tree further,
      Visit.Leads ⟨frame, scope, expression, before⟩ ⟨frame, scope, part, between⟩ ∧
      before.Extends between ∧ Resolves frame scope part between tree further := by
  obtain ⟨trees, given⟩ := derived.each_operand member
  obtain ⟨done, rest, earlier, tree, later, between, further, split, _, first, here⟩ :=
    split_each given member
  exact ⟨between, tree, further, .operand split first, first.extends, here⟩

section

variable {node : FunctionCall}

/-- The body of a declared expression that is resolved is visited and resolved, with the parameters
bound to the arguments. -/
theorem Resolves.leads_to_body {declaration : Declaration}
    (derived : Resolves frame scope (.call node) before tree after)
    (meaning : (frame.vocabulary before.symbols).meaning? node = some (.declared declaration)) :
    ∃ arguments between tree further,
      Visit.Leads ⟨frame, scope, .call node, before⟩
        ⟨frame, scope.entering node.name declaration arguments, declaration.body, between⟩ ∧
      ResolvesAll frame (scope.each node.parameters) before arguments between ∧
      Resolves frame (scope.entering node.name declaration arguments) declaration.body between tree
        further := by
  cases derived with
  | declared declared paired unentered given inner =>
      cases meaning.symm.trans (Frame.meaning?_of_declared declared)
      exact ⟨_, _, _, _, .body declared paired unentered given, given, inner⟩
  | script undeclared found _ =>
      cases meaning.symm.trans (Frame.meaning?_of_script undeclared found)
  | aggregation undeclared unscripted known _ _ _ _ _ _ _ =>
      cases meaning.symm.trans (Frame.meaning?_of_family undeclared unscripted known)

theorem Resolves.passes_parameter
    (derived : Resolves frame scope (.call node) before tree after)
    (meaning : (frame.vocabulary before.symbols).meaning? node = some .aggregation)
    (member : part ∈ node.parameters) :
    ∃ between tree further,
      Visit.Passes ⟨frame, scope, .call node, before⟩
        ⟨frame, scope.aggregated, part, between⟩ ∧
      before.Extends between ∧ Resolves frame scope.aggregated part between tree further := by
  cases derived with
  | declared declared _ _ _ _ =>
      cases meaning.symm.trans (Frame.meaning?_of_declared declared)
  | script undeclared found _ =>
      cases meaning.symm.trans (Frame.meaning?_of_script undeclared found)
  | aggregation undeclared unscripted known notFilter notGroupBy outside created given seen _ =>
      obtain ⟨done, rest, earlier, tree, later, between, further, split, rfl, first, here⟩ :=
        split_each given member
      obtain ⟨parameters, seen⟩ := seen.of_append
      exact ⟨between, tree, further, .intro undeclared unscripted known notFilter notGroupBy outside
        created split first seen, (Frame.extends_of_resolveForge created).trans first.extends, here⟩

end

theorem Resolves.leads_to_direct (derived : Resolves frame scope expression before tree after)
    (member : part ∈ expression.direct) :
    ∃ inner between tree further,
      Visit.Leads ⟨frame, scope, expression, before⟩ ⟨frame, inner, part, between⟩ ∧
      inner.bindings = scope.bindings ∧ inner.expanding = scope.expanding ∧
      before.Extends between ∧
      Resolves frame inner part between tree further := by
  cases derived with
  | table known paired given checked _ =>
      obtain ⟨done, rest, earlier, tree, later, between, further, split, rfl, first, here⟩ :=
        split_each given member
      obtain ⟨columns, keys, isPrefix, inner⟩ := checked.of_append
      exact ⟨scope, between, tree, further, .key known paired split isPrefix first inner, rfl, rfl,
        first.extends, here⟩
  | declared declared paired unentered given _ =>
      obtain ⟨done, rest, earlier, tree, later, between, further, split, _, first, here⟩ :=
        split_each given member
      exact ⟨scope, between, tree, further, .argument declared paired unentered split first, rfl, rfl,
        first.extends, here⟩
  | script undeclared found given =>
      obtain ⟨done, rest, earlier, tree, later, between, further, split, _, first, here⟩ :=
        split_each given member
      exact ⟨scope, between, tree, further, .scriptArgument undeclared found split first, rfl, rfl,
        first.extends, here⟩
  | aggregation undeclared unscripted known notFilter notGroupBy outside created given seen added =>
      have meaning := Frame.meaning?_of_family undeclared unscripted known
      have whole := Resolves.aggregation undeclared unscripted known notFilter notGroupBy outside
        created given seen added
      obtain ⟨between, tree, further, passes, grown, here⟩ := whole.passes_parameter meaning member
      exact ⟨scope.aggregated, between, tree, further, .parameter passes, rfl, rfl, grown, here⟩
  | math left right =>
      obtain ⟨between, tree, further, leads, grown, here⟩ :=
        leads_to_operand (.math left right) member
      exact ⟨scope, between, tree, further, leads, rfl, rfl, grown, here⟩
  | compare left right =>
      obtain ⟨between, tree, further, leads, grown, here⟩ :=
        leads_to_operand (.compare left right) member
      exact ⟨scope, between, tree, further, leads, rfl, rfl, grown, here⟩
  | and left right =>
      obtain ⟨between, tree, further, leads, grown, here⟩ :=
        leads_to_operand (.and left right) member
      exact ⟨scope, between, tree, further, leads, rfl, rfl, grown, here⟩
  | or left right =>
      obtain ⟨between, tree, further, leads, grown, here⟩ :=
        leads_to_operand (.or left right) member
      exact ⟨scope, between, tree, further, leads, rfl, rfl, grown, here⟩
  | not whole =>
      obtain ⟨between, tree, further, leads, grown, here⟩ := leads_to_operand (.not whole) member
      exact ⟨scope, between, tree, further, leads, rfl, rfl, grown, here⟩
  | _ => cases member

theorem Vocabulary.Hands.spoiled {vocabulary : Vocabulary} {name : String} {bound : Resolved}
    (hands : vocabulary.Hands expression name)
    (same : vocabulary = frame.vocabulary before.symbols)
    (derived : Resolves frame scope expression before tree after)
    (known : scope.bindings.lookup name = some bound) (held : bound.Aggregates) :
    Visit.Spoiled ⟨frame, scope, expression, before⟩ := by
  induction hands generalizing scope before tree after bound with
  | parameter meaning member places =>
      subst same
      obtain ⟨between, found, further, passes, grown, here⟩ :=
        derived.passes_parameter meaning member
      rw [← Frame.vocabulary_of_extends grown] at places
      have aggregates := here.reflects.aggregates.mpr (.inr ⟨_, bound, places, known, held⟩)
      exact ⟨_, _, found, further, .refl, passes, here, aggregates⟩
  | inside member _ ih =>
      obtain ⟨inner, between, found, further, leads, bindings, _, grown, here⟩ :=
        derived.leads_to_direct member
      rw [← Frame.vocabulary_of_extends grown] at same
      rw [← bindings] at known
      exact leads.spoiled (ih same here known held)
  | body meaning _ matched places ih =>
      subst same
      obtain ⟨arguments, between, found, further, leads, given, here⟩ :=
        derived.leads_to_body meaning
      obtain ⟨value, boundAs, reflects⟩ :=
        Vocabulary.bound_of_argument given.reflects_each matched
      have aggregates := reflects.aggregates.mpr (.inr ⟨_, bound, places, known, held⟩)
      exact leads.spoiled (ih given.vocabulary_eq.symm here boundAs aggregates)

theorem Vocabulary.Nests.spoiled {vocabulary : Vocabulary}
    (nests : vocabulary.Nests expression)
    (same : vocabulary = frame.vocabulary before.symbols)
    (derived : Resolves frame scope expression before tree after) :
    Visit.Spoiled ⟨frame, scope, expression, before⟩ := by
  induction nests generalizing frame scope before tree after with
  | inside member _ ih =>
      obtain ⟨inner, between, found, further, leads, _, _, grown, here⟩ :=
        derived.leads_to_direct member
      rw [← Frame.vocabulary_of_extends grown] at same
      exact leads.spoiled (ih same here)
  | body meaning _ ih =>
      subst same
      obtain ⟨arguments, between, found, further, leads, given, here⟩ :=
        derived.leads_to_body meaning
      exact leads.spoiled (ih given.vocabulary_eq.symm here)
  | handed meaning hands matched own =>
      subst same
      obtain ⟨arguments, between, found, further, leads, given, here⟩ :=
        derived.leads_to_body meaning
      obtain ⟨value, boundAs, reflects⟩ :=
        Vocabulary.bound_of_argument given.reflects_each matched
      have aggregates := reflects.aggregates.mpr (.inl own)
      exact leads.spoiled (hands.spoiled given.vocabulary_eq.symm here boundAs aggregates)
  | @subquery _ position statement _ expression member _ ih =>
      subst same
      obtain ⟨done, rest, split⟩ := List.append_of_mem member
      cases derived with
      | subquery single compiled =>
          cases compiled with
          | intro bound items _ _ =>
              rw [split] at items
              obtain ⟨earlier, found, later, between, further, _, first, here⟩ := items.split
              have leads : Visit.Leads ⟨frame, scope, .subquery position statement, before⟩ _ :=
                .clause single (.intro bound split first)
              exact leads.spoiled (ih first.vocabulary_eq.symm here)

def Services.vocabulary (services : Services) (statement : Statement) (symbols : SymbolContext) :
    Vocabulary :=
  ⟨services, (symbols.opened statement).declarations, (symbols.opened statement).scripts⟩

namespace Services

variable {services : Services} {order : Nat → List Nat} {statement : Statement}
  {symbols : SymbolContext} {memory : CompilerMemory}

/-- A statement that compiles although its text nests aggregation calls is spoiled. -/
theorem spoiled_of_nests {spec : StatementSpec} {scope : Scope} {expression : Expression}
    (compiled : (services.compileWith order statement symbols memory).result = .ok spec)
    (member : (scope, expression) ∈ statement.items)
    (nests : (services.vocabulary statement symbols).Nests expression) :
    ∃ entered, Enters services order false statement symbols memory entered ∧
      entered.Spoiled := by
  obtain ⟨bare, finish, derived, _⟩ := compiles_of_compileWith compiled
  cases derived with
  | intro bound items _ _ =>
      obtain ⟨done, rest, split⟩ := List.append_of_mem member
      rw [split] at items
      obtain ⟨earlier, found, later, between, further, _, first, here⟩ := items.split
      exact ⟨_, .intro bound split first, nests.spoiled first.vocabulary_eq.symm here⟩

theorem nests_of_spoiled {entered : Visit}
    (enters : Enters services order false statement symbols memory entered)
    (spoiled : entered.Spoiled) :
    ∃ scope expression, (scope, expression) ∈ statement.items ∧
      (services.vocabulary statement symbols).Nests expression := by
  cases enters with
  | intro _ split first =>
      have member := mem_of_split split
      obtain ⟨clause, rfl⟩ := Statement.scope_of_mem_items member
      have nests := spoiled.nests
      unfold Visit.Nests at nests
      dsimp only at nests
      rw [first.vocabulary_eq] at nests
      rcases nests with own | ⟨_, _, _, known, _⟩
      · exact ⟨_, _, member, own⟩
      · cases known

/-- No parameter of an aggregation call that is resolved while a statement is compiled holds an
aggregation call, exactly if nothing in the text nests aggregation calls: no declared expression
that hands a parameter to an aggregation call is given an argument that aggregates. -/
theorem parameters_flat_iff {spec : StatementSpec}
    (compiled : (services.compileWith order statement symbols memory).result = .ok spec) :
    (∀ entered call parameter tree after,
      Enters services order false statement symbols memory entered →
      Relation.ReflTransGen Visit.Leads entered call → call.Passes parameter →
      Resolves parameter.frame parameter.scope parameter.expression parameter.progress tree
        after → ¬ tree.Aggregates) ↔
      ∀ scope expression, (scope, expression) ∈ statement.items →
        ¬ (services.vocabulary statement symbols).Nests expression := by
  constructor
  · intro flat scope expression member nests
    obtain ⟨entered, enters, call, parameter, tree, after, reaches, passes, resolved, aggregates⟩ :=
      spoiled_of_nests compiled member nests
    exact flat entered call parameter tree after enters reaches passes resolved aggregates
  · intro calm entered call parameter tree after enters reaches passes resolved aggregates
    obtain ⟨scope, expression, member, nests⟩ :=
      nests_of_spoiled enters ⟨call, parameter, tree, after, reaches, passes, resolved, aggregates⟩
    exact calm scope expression member nests

def counter : Declaration :=
  ⟨"f", ["x"], .call ⟨none, "count", false, [.property ⟨none, none, "x"⟩]⟩⟩

def counting : Services :=
  { initial with
    factories := [("rec", Recording.factory)]
    functions := [("count", ⟨["count"], "rec", []⟩)]
    declarations := [("f", counter)] }

def counterOf (argument : Expression) : Statement :=
  .selecting "s" (.call ⟨none, "f", false, [argument]⟩)

private theorem counter_not_nests_constant {scope : Scope} {expression : Expression}
    (member : (scope, expression) ∈ (counterOf (.constant none .null)).items) :
    ¬ (counting.vocabulary (counterOf (.constant none .null)) .empty).Nests expression := by
  cases List.mem_singleton.mp member
  intro nests
  cases nests with
  | inside direct inner =>
      cases List.mem_singleton.mp direct
      cases inner with
      | inside nothing _ => cases nothing
  | body meaning inner =>
      cases meaning
      cases inner with
      | inside direct property =>
          cases List.mem_singleton.mp direct
          cases property with
          | inside nothing _ => cases nothing
      | body other _ => cases other
      | handed other _ _ _ => cases other
  | handed meaning _ matched aggregates =>
      cases meaning
      obtain ⟨earlier, later, split, _⟩ := List.lookup_eq_some_iff.mp matched
      have matchedPair := List.of_mem_zip (List.mem_reverse.mp (mem_of_split split))
      cases List.mem_singleton.mp matchedPair.2
      cases aggregates with
      | part nothing _ => cases nothing

set_option maxRecDepth 100000 in
theorem flat_counting_constant :
    ∃ spec, (counting.compileWith List.range (counterOf (.constant none .null)) .empty
        .empty).result = .ok spec ∧
      ∀ entered call parameter tree after,
        Enters counting List.range false (counterOf (.constant none .null)) .empty .empty entered →
        Relation.ReflTransGen Visit.Leads entered call → call.Passes parameter →
        Resolves parameter.frame parameter.scope parameter.expression parameter.progress tree
          after → ¬ tree.Aggregates := by
  refine ⟨_, rfl, (parameters_flat_iff rfl).mpr ?_⟩
  intro scope expression member
  exact counter_not_nests_constant member

set_option maxRecDepth 100000 in
/-- A count of a count is refused where it is written as such, but not where the inner one is the
argument of a declared expression. -/
theorem nested_counting :
    ∃ spec, (counting.compileWith List.range
        (counterOf (.call ⟨none, "count", false, [.constant none .null]⟩)) .empty
        .empty).result = .ok spec ∧
      ∃ entered call parameter tree after,
        Enters counting List.range false
          (counterOf (.call ⟨none, "count", false, [.constant none .null]⟩)) .empty .empty
          entered ∧
        Relation.ReflTransGen Visit.Leads entered call ∧ call.Passes parameter ∧
        Resolves parameter.frame parameter.scope parameter.expression parameter.progress tree
          after ∧ tree.Aggregates := by
  let inner : Expression := .call ⟨none, "count", false, [.constant none .null]⟩
  have hands : (counting.vocabulary (counterOf inner) .empty).Hands counter.body "x" :=
    .parameter rfl (List.mem_singleton_self _) (.property rfl)
  have nests : (counting.vocabulary (counterOf inner) .empty).Nests
      (.call ⟨none, "f", false, [inner]⟩) :=
    .handed rfl hands rfl (.call rfl)
  have member : (Scope.ofClause .select, Expression.call ⟨none, "f", false, [inner]⟩) ∈
      (counterOf inner).items := List.mem_singleton_self _
  have compiled : ∃ spec, (counting.compileWith List.range (counterOf inner) .empty
      .empty).result = .ok spec := ⟨_, rfl⟩
  obtain ⟨spec, compiled⟩ := compiled
  obtain ⟨entered, enters, call, parameter, tree, after, spoiled⟩ :=
    spoiled_of_nests compiled member nests
  exact ⟨spec, compiled, entered, call, parameter, tree, after, enters, spoiled⟩

end Services

end EventQuery
