import EventQuery.Proofs.Expansion.Blame
import EventQuery.Proofs.Expansion.CallGraph
import EventQuery.Proofs.Resolution.Employment

set_option autoImplicit false

/-! Which statements are refused because a declared expression refers to itself. The names that are
being expanded around a call are always a path of links to the call, so a call that is refused
closes a loop; and where loops are, no statement compiles. -/

namespace EventQuery

open Relation Resolution

/-- From every name that is being expanded links lead to each declaration that the expression
calls, and none of them leads on to a loop. -/
structure Vocabulary.Straight (vocabulary : Vocabulary) (expanding : List String)
    (expression : Expression) : Prop where
  ahead : ∀ name, expression.Mentions name → (vocabulary.declaration? name).isSome →
    ∀ earlier ∈ expanding, TransGen vocabulary.Links earlier name
  calm : ¬ vocabulary.Circular expression

namespace Vocabulary

variable {vocabulary : Vocabulary} {expanding : List String} {expression part : Expression}
  {node : FunctionCall} {declaration : Declaration} {name : String}

theorem Loops.declared {start : String} (loops : vocabulary.Loops name)
    (path : ReflTransGen vocabulary.Links start name) :
    (vocabulary.declaration? start).isSome := by
  obtain ⟨next, links, _⟩ := TransGen.head'_iff.mp (TransGen.trans_right path loops)
  obtain ⟨declaration, declared, _⟩ := links
  rw [declared]
  rfl

namespace Straight

theorem of_calm (calm : ¬ vocabulary.Circular expression) : vocabulary.Straight [] expression where
  ahead := fun _ _ _ => List.forall_mem_nil _
  calm := calm

theorem of_direct (straight : vocabulary.Straight expanding expression)
    (member : part ∈ expression.direct) : vocabulary.Straight expanding part where
  ahead := fun name mentions => straight.ahead name (.inside member mentions)
  calm := by
    intro circular
    obtain ⟨start, name, mentions, path, loops⟩ := circular
    exact straight.calm ⟨start, name, .inside member mentions, path, loops⟩

theorem unexpanded (straight : vocabulary.Straight expanding (.call node))
    (declared : vocabulary.declaration? node.name = some declaration) :
    node.name ∉ expanding := by
  intro within
  have known : (vocabulary.declaration? node.name).isSome := by
    rw [declared]
    rfl
  have loops := straight.ahead node.name (.call node) known node.name within
  exact straight.calm ⟨node.name, node.name, .call node, .refl, loops⟩

theorem body (straight : vocabulary.Straight expanding (.call node))
    (declared : vocabulary.declaration? node.name = some declaration) :
    vocabulary.Straight (node.name :: expanding) declaration.body where
  ahead := by
    intro name mentions known earlier member
    have links : vocabulary.Links node.name name := ⟨declaration, declared, mentions, known⟩
    have callKnown : (vocabulary.declaration? node.name).isSome := by
      rw [declared]
      rfl
    rcases List.mem_cons.mp member with rfl | around
    · exact .single links
    · exact (straight.ahead node.name (.call node) callKnown earlier around).tail links
  calm := by
    intro circular
    obtain ⟨start, name, mentions, path, loops⟩ := circular
    have links : vocabulary.Links node.name start :=
      ⟨declaration, declared, mentions, loops.declared path⟩
    exact straight.calm ⟨node.name, name, .call node, path.head links, loops⟩

end Straight

end Vocabulary

namespace Visit

variable {visit next : Visit}

/-- The visit is in a statement without subqueries, and no loop can be reached from it. -/
structure Straight (visit : Visit) : Prop where
  path : (visit.frame.vocabulary visit.progress.symbols).Straight visit.scope.expanding
    visit.expression
  plain : visit.Within []
  withholds : visit.frame.services.Withholds

theorem operands_subset_direct (expression : Expression) :
    expression.operands ⊆ expression.direct := by
  cases expression with
  | table node => exact List.nil_subset _
  | call node => exact List.nil_subset _
  | _ => exact List.Subset.refl _

theorem Leads.straight (leads : visit.Leads next) (straight : visit.Straight) :
    next.Straight where
  plain := leads.within (List.forall_mem_nil _) straight.plain
  withholds := by
    rw [leads.services_eq]
    exact straight.withholds
  path := by
    have path := straight.path
    cases leads with
    | @operand _ _ expression _ _ _ _ _ _ split derived =>
        dsimp only at path ⊢
        rw [derived.vocabulary_eq]
        exact path.of_direct (operands_subset_direct expression (mem_of_split split))
    | key _ _ split _ derived _ =>
        dsimp only at path ⊢
        rw [derived.vocabulary_eq]
        exact path.of_direct (mem_of_split split)
    | argument _ _ _ split derived =>
        dsimp only at path ⊢
        rw [derived.vocabulary_eq]
        exact path.of_direct (mem_of_split split)
    | body declared _ _ derived =>
        dsimp only at path ⊢
        rw [derived.vocabulary_eq]
        exact path.body declared
    | scriptArgument _ _ split derived =>
        dsimp only at path ⊢
        rw [derived.vocabulary_eq]
        exact path.of_direct (mem_of_split split)
    | parameter passes =>
        obtain ⟨_, _, _, _, _, _, created, split, derived, _⟩ := passes
        have grown := (Frame.extends_of_resolveForge created).trans derived.extends
        dsimp only at path ⊢
        rw [Frame.vocabulary_of_extends grown]
        exact path.of_direct (mem_of_split split)
    | clause _ _ => exact absurd (straight.plain.expression List.mem_cons_self) List.not_mem_nil

def Spares (visit : Visit) (fuel : Nat) : Prop :=
  Resolution.Spares (resolve .spent fuel visit.frame visit.scope visit.expression) visit.progress

variable {fuel : Nat} (spares : ∀ visit : Visit, visit.Straight → visit.Spares fuel)
  {frame : Frame} {scope : Scope} {before : Progress}

include spares

private theorem spares_operator {expression : Expression} (some : expression.operands ≠ [])
    (straight : Visit.Straight ⟨frame, scope, expression, before⟩) :
    Visit.Spares ⟨frame, scope, expression, before⟩ (fuel + 1) := by
  refine Spares.of_endsLike (endsLike_operator .spent fuel frame scope some) ?_
  refine Spares.mapM_of_yields ?_
  intro done operand rest trees between split run
  have leads : Leads ⟨frame, scope, expression, before⟩ ⟨frame, scope, operand, between⟩ :=
    .operand split ((resolve_sound fuel).resolvesEach run)
  exact spares _ (leads.straight straight)

private theorem spares_table {node : TableAccess}
    (straight : Visit.Straight ⟨frame, scope, .table node, before⟩) :
    Resolution.Spares (frame.resolveTable (resolve .spent fuel frame scope) node) before := by
  unfold Frame.resolveTable
  cases known : frame.services.table? node.table with
  | none => exact .refuse trivial
  | some table =>
      dsimp only
      by_cases paired : node.keys.length = table.keys.length
      · rw [if_neg (not_not_intro paired)]
        refine (Spares.mapM_of_yields ?_).bind (fun keys _ => ?_)
        · rintro done ⟨key, column⟩ rest keys between split run
          obtain ⟨trees, whole, first, run, checked⟩ := yields_keys_of_split paired split run
          have derived := (resolve_sound fuel).resolvesEach run
          have leads : Leads ⟨frame, scope, .table node, before⟩ ⟨frame, scope, key, between⟩ :=
            .key known paired whole first derived checked
          exact (spares _ (leads.straight straight)).bind
            (fun tree _ => .ofChecked (Frame.innocent_checkedKey node table column tree))
        · refine (Spares.ofChecked (Frame.innocent_accessedType node table)).bind (fun _ _ => ?_)
          exact .modifySymbols_bind (fun _ => .pure _)
      · rw [if_pos paired]
        exact .refuse trivial

private theorem spares_declared {node : FunctionCall} {declaration : Declaration}
    (declared : frame.declaration? before.symbols node.name = some declaration)
    (straight : Visit.Straight ⟨frame, scope, .call node, before⟩) :
    Resolution.Spares
      (Frame.resolveDeclared (resolve .spent fuel frame) scope node declaration) before := by
  have unexpanded : node.name ∉ scope.expanding := straight.path.unexpanded declared
  by_cases paired : declaration.parameters.length = node.parameters.length
  · rw [Frame.resolveDeclared_of_admitted paired unexpanded]
    refine (Spares.mapM_of_yields ?_).bind_of_yields (fun arguments between run => ?_)
    · intro done argument rest trees between split run
      have derived := (resolve_sound fuel).resolvesEach run
      have leads : Leads ⟨frame, scope, .call node, before⟩ ⟨frame, scope, argument, between⟩ :=
        .argument declared paired unexpanded split derived
      exact spares _ (leads.straight straight)
    · have derived := (resolve_sound fuel).resolvesEach run
      have leads : Leads ⟨frame, scope, .call node, before⟩
          ⟨frame, scope.entering node.name declaration arguments, declaration.body, between⟩ :=
        .body declared paired unexpanded derived
      exact (spares _ (leads.straight straight)).bind (fun _ _ => .pure _)
  · unfold Frame.resolveDeclared
    dsimp only
    rw [if_pos paired]
    exact .refuse trivial

private theorem spares_script {node : FunctionCall} {script : Script}
    (undeclared : frame.declaration? before.symbols node.name = none)
    (found : before.symbols.script? node.name node.parameters.length = some script)
    (straight : Visit.Straight ⟨frame, scope, .call node, before⟩) :
    Resolution.Spares (do
      let arguments ← node.parameters.mapM (resolve .spent fuel frame scope)
      return Resolved.script script arguments) before := by
  refine (Spares.mapM_of_yields ?_).bind (fun _ _ => .pure _)
  intro done argument rest trees between split run
  have derived := (resolve_sound fuel).resolvesEach run
  have leads : Leads ⟨frame, scope, .call node, before⟩ ⟨frame, scope, argument, between⟩ :=
    .scriptArgument undeclared found split derived
  exact spares _ (leads.straight straight)

private theorem spares_aggregation {node : FunctionCall} {family : FunctionFamily}
    (undeclared : frame.declaration? before.symbols node.name = none)
    (unscripted : before.symbols.scripts.any (fun script => script.name = node.name) = false)
    (known : frame.services.family? node.name = some family)
    (straight : Visit.Straight ⟨frame, scope, .call node, before⟩) :
    Resolution.Spares
      (frame.resolveAggregation (resolve .spent fuel frame) scope node family) before := by
  unfold Frame.resolveAggregation
  split
  · exact .refuse trivial
  · rename_i allowed
    split
    · exact .refuse trivial
    · rename_i inside
      simp only [Bool.or_eq_true, decide_eq_true_eq, not_or] at allowed
      have outside : scope.inAggregation = false := (Bool.not_eq_true _).mp inside
      refine (Frame.spares_resolveForge straight.withholds family node.position).bind_of_yields ?_
      intro forge inner created
      refine (Spares.mapM_of_yields ?_).bind (fun parameters between => ?_)
      · intro done parameter rest parameters between split run
        obtain ⟨trees, run, seen⟩ := yields_parameters_iff.mp run
        have derived := (resolve_sound fuel).resolvesEach run
        have leads : Leads ⟨frame, scope, .call node, before⟩
            ⟨frame, scope.aggregated, parameter, between⟩ :=
          .parameter (.intro undeclared unscripted known allowed.1 allowed.2 outside created split
            derived seen)
        exact (spares _ (leads.straight straight)).bind
          (fun tree _ => .ofChecked (Frame.innocent_aggregationParameter tree))
      · apply Spares.get_bind
        split
        · rename_i failure refused
          exact .refuse (between.calls.innocent_add _ failure refused)
        · exact .set_bind (.pure _)

private theorem spares_call {node : FunctionCall}
    (straight : Visit.Straight ⟨frame, scope, .call node, before⟩) :
    Resolution.Spares (frame.resolveCall (resolve .spent fuel frame) scope node) before := by
  unfold Frame.resolveCall
  apply Spares.get_bind
  dsimp only
  cases declared : frame.declaration? before.symbols node.name with
  | some declaration => exact spares_declared spares declared straight
  | none =>
      dsimp only
      cases scripted : before.symbols.scripts.any (fun script => script.name = node.name) with
      | true =>
          cases found : before.symbols.script? node.name node.parameters.length with
          | none => exact .refuse trivial
          | some script => exact spares_script spares declared found straight
      | false =>
          cases known : frame.services.family? node.name with
          | none => exact .refuse trivial
          | some family => exact spares_aggregation spares declared scripted known straight

end Visit

theorem spares_visit (fuel : Nat) : ∀ visit : Visit, visit.Straight → visit.Spares fuel := by
  induction fuel with
  | zero =>
      intro visit _
      exact .unfinished
  | succ fuel ih =>
      rintro ⟨frame, scope, expression, before⟩ straight
      cases expression with
      | constant position value => exact .pure _
      | property node => exact Frame.spares_resolveProperty scope node
      | wildcard position stream => exact Frame.spares_resolveWildcard scope position stream
      | substitution node => exact Frame.spares_resolveSubstitution node
      | prior position index node => exact Frame.spares_resolvePrior scope position index node
      | table node => exact Visit.spares_table ih straight
      | call node => exact Visit.spares_call ih straight
      | subquery position statement =>
          exact absurd (straight.plain.expression List.mem_cons_self) List.not_mem_nil
      | math operator left right => exact Visit.spares_operator ih nofun straight
      | compare operator left right => exact Visit.spares_operator ih nofun straight
      | and left right => exact Visit.spares_operator ih nofun straight
      | or left right => exact Visit.spares_operator ih nofun straight
      | not inner => exact Visit.spares_operator ih nofun straight

/-! ### Statements -/

theorem Enters.straight {services : Services} {order : Nat → List Nat} {isSubquery : Bool}
    {statement : Statement} {memory : CompilerMemory} {visit : Visit}
    (enters : Enters services order isSubquery statement .empty memory visit)
    (calm : ∀ item ∈ statement.items, ¬ (services.vocabulary statement .empty).Circular item.2)
    (globals : ∀ entry ∈ services.declarations, entry.2.subqueries = [])
    (flat : statement.subqueries = []) (withholds : services.Withholds) : visit.Straight := by
  have plain : visit.Within [] := by
    refine enters.within ?_ ?_ (List.forall_mem_nil _)
    · rw [flat]
      exact List.nil_subset _
    · intro entry held
      rw [globals entry held]
      exact List.nil_subset _
  cases enters with
  | intro bound split derived =>
      have member := mem_of_split split
      obtain ⟨clause, rfl⟩ := Statement.scope_of_mem_items member
      refine ⟨?_, plain, withholds⟩
      dsimp only
      rw [derived.vocabulary_eq]
      exact .of_calm (calm _ member)

namespace Services

variable {services : Services} {order : Nat → List Nat} {statement : Statement}
  {memory : CompilerMemory}

theorem innocent_compileStatement (withholds : services.Withholds) {fuel : Nat}
    (straight : ∀ visit, Enters services order false statement .empty memory visit →
      visit.Straight) {failure : LocatedError}
    (refused : (compileStatement (resolve .spent fuel) services order false statement .empty
      memory).1 = .error (.refused failure)) : failure.Innocent := by
  cases bound : bindStreams services.registry [] statement.streams with
  | error found =>
      unfold compileStatement at refused
      rw [bound] at refused
      cases refused
      exact innocent_bindStreams [] statement.streams failure bound
  | ok streams =>
      rw [compileStatement_of_bound bound] at refused
      have run := Checked.map_eq_error_iff.mp refused
      refine Spares.bind_of_yields ?_ ?_ failure run
      · refine Spares.of_endsLike (endsLike_resolveClauses _ statement) ?_
        refine Spares.mapM_of_yields ?_
        rintro done ⟨scope, expression⟩ rest trees between split given
        have derived := (resolve_sound fuel).resolvesAll given
        exact spares_visit fuel _ (straight _ (.intro bound split derived))
      · intro clauses between given
        obtain ⟨items, _⟩ := yields_resolveClauses_iff.mp given
        have derived := (resolve_sound fuel).resolvesAll items
        have employs := derived.employs withholds.forges (.opening statement memory)
        exact Frame.spares_conclude _ statement clauses employs.sites

theorem innocent_of_compileWithin (withholds : services.Withholds) {fuel : Nat}
    (straight : ∀ visit, Enters services order false statement .empty memory visit →
      visit.Straight) {failure : StatementError}
    (refused : (services.compileWithin fuel order statement .empty memory).result =
      .error (.refused failure)) : failure.error.Innocent := by
  unfold compileWithin compileBy at refused
  cases run : compileStatement (resolve .spent fuel) services order false statement .empty
      memory with
  | mk result later =>
      rw [run] at refused
      cases result with
      | ok gathered => cases refused
      | error fault =>
          cases fault with
          | unfinished => cases refused
          | refused located =>
              cases refused
              have here : (compileStatement (resolve .spent fuel) services order false statement
                  .empty memory).1 = .error (.refused located) := by
                rw [run]
              exact innocent_compileStatement withholds straight here

/-- Without subqueries a compilation ends, and where a loop is reached it does not end well. -/
theorem refused_of_circular
    (globals : ∀ entry ∈ services.declarations, entry.2.subqueries = [])
    {item : Scope × Expression} (member : item ∈ statement.items)
    (circular : (services.vocabulary statement .empty).Circular item.2) :
    ∃ failure, (services.compile order statement memory).result = .error (.refused failure) := by
  have ended : (services.compile order statement memory).Ended :=
    ended_of_not_recurs (not_recurs_of_plain globals)
  cases ended with
  | inl accepted =>
      obtain ⟨spec, compiled⟩ := accepted
      exact absurd circular (not_circular_of_compileWith compiled member)
  | inr refused => exact refused

/-- A statement that compiles reaches no loop of declared expressions from its calls. A statement
that reaches one is refused, and one that reaches none is never refused because a declared
expression refers to itself, however its calls stand in each other's arguments. -/
theorem selfReference_exact (globals : ∀ entry ∈ services.declarations, entry.2.subqueries = [])
    (flat : statement.subqueries = []) :
    (∀ spec, (services.compile order statement memory).result = .ok spec →
      ∀ item ∈ statement.items, ¬ (services.vocabulary statement .empty).Circular item.2) ∧
    ((∃ item ∈ statement.items, (services.vocabulary statement .empty).Circular item.2) →
      ∃ failure, (services.compile order statement memory).result = .error (.refused failure)) ∧
    (services.Withholds →
      (∀ item ∈ statement.items, ¬ (services.vocabulary statement .empty).Circular item.2) →
      ∀ failure, (services.compile order statement memory).result = .error (.refused failure) →
        ∀ name, failure.error ≠ .notAllowed (.selfReference name)) := by
  refine ⟨?_, ?_, ?_⟩
  · intro spec compiled item member
    exact not_circular_of_compileWith compiled member
  · intro reached
    obtain ⟨item, member, circular⟩ := reached
    exact refused_of_circular globals member circular
  · intro withholds calm failure refused name same
    unfold compile at refused
    rw [compileWith_eq_compileWithin] at refused
    have innocent : failure.error.Innocent :=
      innocent_of_compileWithin withholds
        (fun visit enters => enters.straight calm globals flat withholds) refused
    rw [same] at innocent
    exact innocent

/-- Globally declared, `double(x)` is `x + x`. -/
def withDouble : Services :=
  let parameter : Expression := .property ⟨none, none, "x"⟩
  initial.declareExpression ⟨"double", ["x"], .math .add parameter parameter⟩

def doubledTwice (value : Constant) : Statement :=
  let double (argument : Expression) : Expression := .call ⟨none, "double", false, [argument]⟩
  .selecting "s" (double (double (.constant none value)))

theorem not_circular_withDouble (value : Constant) (expression : Expression) :
    ¬ (withDouble.vocabulary (doubledTwice value) .empty).Circular expression := by
  intro circular
  obtain ⟨_, name, _, _, loops⟩ := circular
  obtain ⟨called, links, _⟩ := TransGen.head'_iff.mp loops
  obtain ⟨declaration, declared, mentions, _⟩ := links
  have held := Entries.mem_of_lookup declared
  cases List.mem_singleton.mp held
  cases mentions with
  | inside member inner =>
      simp only [Expression.direct, Expression.operands, List.mem_cons, List.not_mem_nil,
        or_false, or_self] at member
      subst member
      cases inner with
      | inside member _ => exact absurd member List.not_mem_nil

/-- Selects `echo()`, which is `not echo()`. -/
def echoing : Statement :=
  let echo : Expression := .call ⟨none, "echo", false, []⟩
  { Statement.selecting "s" echo with declarations := [⟨"echo", [], .not echo⟩] }

theorem circular_echoing :
    ∃ item ∈ echoing.items, (withDouble.vocabulary echoing .empty).Circular item.2 := by
  refine ⟨_, List.mem_singleton_self _, "echo", "echo", .call _, .refl, .single ?_⟩
  exact ⟨_, rfl, .inside (List.mem_singleton_self _) (.call _), rfl⟩

/-- What is doubled in the argument of a doubling compiles, or is refused for another reason; and
an echo of itself is refused. -/
theorem selfReference_doubledTwice :
    (∀ entry ∈ withDouble.declarations, entry.2.subqueries = []) ∧
    (∀ value, (doubledTwice value).subqueries = []) ∧ withDouble.Withholds ∧
    (withDouble.compile List.range (doubledTwice (.int 1)) .empty).result.isOk ∧
    (∀ item ∈ (doubledTwice (.int 1)).items,
      ¬ (withDouble.vocabulary (doubledTwice (.int 1)) .empty).Circular item.2) ∧
    ∃ failure,
      (withDouble.compile List.range (doubledTwice (.bool true)) .empty).result =
        .error (.refused failure) ∧
      (∀ name, failure.error ≠ .notAllowed (.selfReference name)) ∧
      (∃ item ∈ echoing.items, (withDouble.vocabulary echoing .empty).Circular item.2) ∧
      ∃ echoed, (withDouble.compile List.range echoing .empty).result =
        .error (.refused echoed) := by
  have globals : ∀ entry ∈ withDouble.declarations, entry.2.subqueries = [] := by
    intro entry held
    cases List.mem_singleton.mp held
    rfl
  have withholds : withDouble.Withholds := by
    refine withholds_of_known ?_
    intro entry held
    cases List.mem_singleton.mp held
    exact .inl rfl
  have compiled : (withDouble.compile List.range (doubledTwice (.int 1)) .empty).result.isOk := by
    decide +kernel
  have refused : (match
      (withDouble.compile List.range (doubledTwice (.bool true)) .empty).result with
      | .error (.refused _) => true
      | _ => false) = true := by
    decide +kernel
  refine ⟨globals, fun _ => rfl, withholds, compiled, ?_, ?_⟩
  · cases result : (withDouble.compile List.range (doubledTwice (.int 1)) .empty).result with
    | error failure =>
        rw [result] at compiled
        cases compiled
    | ok spec => exact (selfReference_exact globals rfl).1 spec result
  · split at refused
    · rename_i failure result
      exact ⟨failure, result, (selfReference_exact globals rfl).2.2 withholds
        (fun item _ => not_circular_withDouble _ item.2) failure result, circular_echoing,
        (selfReference_exact globals rfl).2.1 circular_echoing⟩
    · cases refused

end Services

end EventQuery
