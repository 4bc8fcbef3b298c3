import EventQuery.Proofs.Nesting.Reached
import EventQuery.Proofs.Protocol.Phases

set_option autoImplicit false

/-! The call sites of a statement are the aggregation calls that its text comes to. A call takes the
next position when it is resolved and keeps it; and what has a position is either one of the calls
that were there before, or was reached since. -/

namespace EventQuery

open Resolution

def CallSites.node? (calls : CallSites) (index : Nat) : Option FunctionCall :=
  calls.sites[index]?.map CallSite.node

/-- The visit comes, within its statement, to an aggregation call that is resolved to a reference
to the given position. -/
def Visit.Calls (visit : Visit) (index : Nat) (node : FunctionCall) : Prop :=
  ∃ place after, Relation.ReflTransGen Visit.Descends visit place ∧
    place.expression = .call node ∧
    Resolves place.frame place.scope place.expression place.progress
      (.aggregation index node.position none) after

/-- The clauses of the statement come to the call, the clauses of its subqueries apart. -/
def Undertaking.Calls (undertaking : Undertaking) (index : Nat) (node : FunctionCall) : Prop :=
  ∃ entered, Enters undertaking.services undertaking.order undertaking.isSubquery
    undertaking.statement .empty undertaking.memory entered ∧ entered.Calls index node

namespace CallSites

variable {calls calls' : CallSites} {site : CallSite} {index taken : Nat} {node : FunctionCall}

theorem node?_of_prefix (kept : calls.sites <+: calls'.sites) (found : calls.node? index = some node) :
    calls'.node? index = some node := by
  obtain ⟨site, here, rfl⟩ := Option.map_eq_some_iff.mp found
  obtain ⟨inside, rfl⟩ := List.getElem?_eq_some_iff.mp here
  exact Option.map_eq_some_iff.mpr ⟨_, (List.prefix_iff_getElem?.mp kept) index inside, rfl⟩

theorem node?_add (added : calls.add site = .ok (taken, calls')) :
    calls'.node? index = some node ↔
      calls.node? index = some node ∨ index = taken ∧ site.node = node := by
  obtain ⟨rfl, same⟩ := sites_of_add added
  unfold node?
  rw [same]
  rcases Nat.lt_trichotomy index calls.sites.length with earlier | rfl | later
  · rw [List.getElem?_append_left earlier]
    simp only [Nat.ne_of_lt earlier, false_and, or_false]
  · simp
  · have outside : (calls.sites ++ [site]).length ≤ index := by
      rw [List.length_append]
      exact later
    rw [List.getElem?_eq_none outside, List.getElem?_eq_none (Nat.le_of_lt later)]
    simp [Nat.ne_of_gt later]

end CallSites

theorem Resolves.node?_of_call {frame : Frame} {scope : Scope} {before after : Progress}
    {index : Nat} {node : FunctionCall} {position : Option Position}
    (derived : Resolves frame scope (.call node) before (.aggregation index position none) after) :
    after.calls.node? index = some node := by
  cases derived with
  | aggregation _ _ _ _ _ _ _ _ _ added =>
      exact (CallSites.node?_add added).mpr (.inr ⟨rfl, rfl⟩)

namespace Visit

variable {visit next : Visit} {finish : Progress} {index : Nat} {node : FunctionCall}

theorem Descends.calls (descends : visit.Descends next) (calls : next.Calls index node) :
    visit.Calls index node := by
  obtain ⟨place, after, reaches, rest⟩ := calls
  exact ⟨place, after, .head descends reaches, rest⟩

theorem Calls.kept (calls : visit.Calls index node) (kept : visit.KeptUntil finish) :
    finish.calls.node? index = some node := by
  obtain ⟨place, after, reaches, call, derived⟩ := calls
  obtain ⟨tree, other, again, grown⟩ := keptUntil_of_descends reaches kept
  obtain ⟨rfl, rfl⟩ := derived.unique again
  refine CallSites.node?_of_prefix grown.sites ?_
  rw [call] at derived
  exact derived.node?_of_call

end Visit

/-- One of the items comes to the call, after those before it are resolved. -/
def Frame.CallsAmong (frame : Frame) (items : List (Scope × Expression)) (before : Progress)
    (trees : List Resolved) (index : Nat) (node : FunctionCall) : Prop :=
  ∃ done scope expression rest earlier later between,
    items = done ++ (scope, expression) :: rest ∧ trees = earlier ++ later ∧
    ResolvesAll frame done before earlier between ∧
    Visit.Calls ⟨frame, scope, expression, between⟩ index node

section

variable {frame : Frame} {scope : Scope} {before between : Progress} {trees : List Resolved}
  {index : Nat} {node : FunctionCall} {expression left right : Expression}

private theorem Frame.CallsAmong.each {expressions : List Expression}
    (among : frame.CallsAmong (scope.each expressions) before trees index node) :
    ∃ done part rest earlier later between,
      expressions = done ++ part :: rest ∧ trees = earlier ++ later ∧
      ResolvesAll frame (scope.each done) before earlier between ∧
      Visit.Calls ⟨frame, scope, part, between⟩ index node := by
  obtain ⟨done, inner, part, rest, earlier, later, between, split, whole, first, calls⟩ := among
  obtain ⟨before, others, rfl, rfl, here⟩ := List.map_eq_append_iff.mp split
  obtain ⟨_, after, rfl, same, rfl⟩ := List.map_eq_cons_iff.mp here
  cases same
  exact ⟨before, part, after, earlier, later, between, rfl, whole, first, calls⟩

private theorem calls_of_operand {done rest : List Expression} {operand : Expression}
    (split : expression.operands = done ++ operand :: rest)
    (first : ResolvesAll frame (scope.each done) before trees between)
    (calls : Visit.Calls ⟨frame, scope, operand, between⟩ index node) :
    Visit.Calls ⟨frame, scope, expression, before⟩ index node := by
  refine Visit.Descends.calls ⟨.operand split first, ?_⟩ calls
  rintro position statement rfl
  cases mem_of_split split

private theorem calls_of_first {rest : List Expression} {operand : Expression}
    (split : expression.operands = operand :: rest)
    (calls : Visit.Calls ⟨frame, scope, operand, before⟩ index node) :
    Visit.Calls ⟨frame, scope, expression, before⟩ index node := by
  have whole : expression.operands = [] ++ operand :: rest := split
  exact calls_of_operand whole .nil calls

private theorem calls_of_operands {tree : Resolved}
    (operands : expression.operands = [left, right])
    (first : Resolves frame scope left before tree between)
    (onRight : between.calls.node? index = some node ∨
      Visit.Calls ⟨frame, scope, right, between⟩ index node)
    (onLeft : between.calls.node? index = some node → before.calls.node? index = some node ∨
      Visit.Calls ⟨frame, scope, left, before⟩ index node) :
    before.calls.node? index = some node ∨
      Visit.Calls ⟨frame, scope, expression, before⟩ index node := by
  rcases onRight with here | reached
  · exact (onLeft here).imp_right (calls_of_first operands)
  · have split : expression.operands = [left] ++ right :: [] := operands
    exact .inr (calls_of_operand split (.cons first .nil) reached)

end

mutual

/-- A position that is taken at the end was taken before, or is that of a call that is reached. -/
theorem Resolves.called {frame : Frame} {scope : Scope} {expression : Expression}
    {tree : Resolved} {before after : Progress} {index : Nat} {node : FunctionCall} :
    Resolves frame scope expression before tree after → after.calls.node? index = some node →
      before.calls.node? index = some node ∨
        Visit.Calls ⟨frame, scope, expression, before⟩ index node
  | .constant, taken => .inl taken
  | .property run, taken => by
      rw [(Frame.undisturbed_of_resolveProperty run).calls] at taken
      exact .inl taken
  | .wildcard run, taken => by
      rw [(Frame.yields_resolveWildcard run).1] at taken
      exact .inl taken
  | .substitution run, taken => by
      obtain ⟨_, _, rfl⟩ := Frame.yields_resolveSubstitution run
      exact .inl taken
  | .prior run, taken => by
      rw [(Frame.undisturbed_of_resolvePrior run).calls] at taken
      exact .inl taken
  | .table known paired given checked _, taken => by
      refine (given.called taken).imp_right (fun among => ?_)
      obtain ⟨done, key, rest, earlier, later, between, split, rfl, first, calls⟩ := among.each
      obtain ⟨columns, keys, isPrefix, inner⟩ := checked.of_append
      exact Visit.Descends.calls ⟨.key known paired split isPrefix first inner, nofun⟩ calls
  | .declared declared paired unentered given inner, taken => by
      rcases inner.called taken with earlier | calls
      · refine (given.called earlier).imp_right (fun among => ?_)
        obtain ⟨done, argument, rest, _, _, between, split, _, first, calls⟩ := among.each
        exact Visit.Descends.calls ⟨.argument declared paired unentered split first, nofun⟩ calls
      · exact .inr (Visit.Descends.calls ⟨.body declared paired unentered given, nofun⟩ calls)
  | .script undeclared found given, taken => by
      refine (given.called taken).imp_right (fun among => ?_)
      obtain ⟨done, argument, rest, _, _, between, split, _, first, calls⟩ := among.each
      exact Visit.Descends.calls ⟨.scriptArgument undeclared found split first, nofun⟩ calls
  | .aggregation undeclared unscripted known notFilter notGroupBy outside created given seen added,
      taken => by
      -- The position of the call itself comes after those that its parameters may have taken.
      rcases (CallSites.node?_add added).mp taken with earlier | ⟨rfl, rfl⟩
      · rcases given.called earlier with already | among
        · rw [(Frame.undisturbed_of_resolveForge created).calls] at already
          exact .inl already
        · obtain ⟨done, parameter, rest, _, _, between, split, rfl, first, calls⟩ := among.each
          obtain ⟨parameters, seen⟩ := seen.of_append
          have passes := Visit.Passes.intro undeclared unscripted known notFilter notGroupBy outside
            created split first seen
          exact .inr (Visit.Descends.calls ⟨.parameter passes, nofun⟩ calls)
      · exact .inr ⟨_, _, .refl, rfl, .aggregation undeclared unscripted known notFilter notGroupBy
          outside created given seen added⟩
  | .subquery _ _, taken => .inl taken
  | .math left right, taken => calls_of_operands rfl left (right.called taken) left.called
  | .compare left right, taken => calls_of_operands rfl left (right.called taken) left.called
  | .and left right, taken => calls_of_operands rfl left (right.called taken) left.called
  | .or left right, taken => calls_of_operands rfl left (right.called taken) left.called
  | .not inner, taken => (inner.called taken).imp_right (calls_of_first rfl)

theorem ResolvesAll.called {frame : Frame} {items : List (Scope × Expression)}
    {trees : List Resolved} {before after : Progress} {index : Nat} {node : FunctionCall} :
    ResolvesAll frame items before trees after → after.calls.node? index = some node →
      before.calls.node? index = some node ∨ frame.CallsAmong items before trees index node
  | .nil, taken => .inl taken
  | .cons head tail, taken => by
      rcases tail.called taken with here | among
      · refine (head.called here).imp_right (fun calls => ?_)
        exact ⟨[], _, _, _, [], _, _, rfl, rfl, .nil, calls⟩
      · obtain ⟨done, _, _, rest, earlier, later, between, rfl, rfl, first, calls⟩ := among
        exact .inr ⟨_ :: done, _, _, rest, _ :: earlier, later, between, rfl, rfl,
          .cons head first, calls⟩

end

/-- When the clauses of a statement are resolved, its call sites are the aggregation calls that they
come to, each at the position that its reference has. -/
theorem Undertaking.site_iff {undertaking : Undertaking} (resolved : undertaking.Resolved)
    (index : Nat) (node : FunctionCall) :
    undertaking.sites[index]?.map CallSite.node = some node ↔ undertaking.Calls index node := by
  change undertaking.resolution.2.calls.node? index = some node ↔ _
  obtain ⟨clauses, resolved⟩ := resolved
  cases bound : bindStreams undertaking.services.registry [] undertaking.statement.streams with
  | error failure =>
      unfold resolution at resolved
      rw [bound] at resolved
      cases resolved
  | ok streams =>
      have run : Yields (resolveClauses (resolve .spent undertaking.fuel undertaking.frame)
          undertaking.statement) undertaking.opening clauses undertaking.resolution.2 := by
        unfold Yields
        rw [← resolution_of_bound bound, ← resolved]
      have given := (resolve_sound undertaking.fuel).resolvesAll (yields_resolveClauses_iff.mp run).1
      rw [frame_of_bound bound] at given
      constructor
      · intro taken
        rcases given.called taken with impossible | among
        · cases impossible
        · obtain ⟨done, scope, expression, rest, earlier, _, between, split, _, first, calls⟩ := among
          exact ⟨_, .intro bound split first, calls⟩
      · rintro ⟨entered, enters, calls⟩
        exact calls.kept (enters.keptUntil bound given)

end EventQuery
