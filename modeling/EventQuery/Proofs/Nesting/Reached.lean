import EventQuery.Proofs.Nesting.Parameters
import EventQuery.Proofs.Specification.Clauses

set_option autoImplicit false

/-! Resolution is deterministic, so what a resolved expression leads to is resolved on the way and
what is gathered there is kept, up to the subqueries: these gather for themselves. -/

namespace EventQuery

open Resolution

theorem Resolution.Yields.unique {α : Type} {action : Resolution α} {before after other : Progress}
    {value found : α} (run : Yields action before value after)
    (again : Yields action before found other) : value = found ∧ after = other := by
  cases run.symm.trans again
  exact ⟨rfl, rfl⟩

section

variable {frame : Frame} {before between after other : Progress}

theorem Resolves.unique {scope : Scope} {expression : Expression} {tree found : Resolved}
    (derived : Resolves frame scope expression before tree after)
    (again : Resolves frame scope expression before found other) :
    tree = found ∧ after = other := by
  obtain ⟨fuel, run⟩ := derived.yields
  obtain ⟨more, otherRun⟩ := again.yields
  have first := (resolve_refinedBy (Nat.le_max_left fuel more) frame scope expression).yields run
  have second :=
    (resolve_refinedBy (Nat.le_max_right fuel more) frame scope expression).yields otherRun
  exact first.unique second

variable {items : List (Scope × Expression)} {trees : List Resolved}

theorem ResolvesAll.unique {others : List Resolved}
    (derived : ResolvesAll frame items before trees after)
    (again : ResolvesAll frame items before others other) : trees = others ∧ after = other := by
  induction items generalizing before trees others with
  | nil =>
      cases derived
      cases again
      exact ⟨rfl, rfl⟩
  | cons item items ih =>
      cases derived with
      | cons head tail =>
          cases again with
          | cons otherHead otherTail =>
              obtain ⟨rfl, rfl⟩ := head.unique otherHead
              obtain ⟨rfl, rfl⟩ := ih tail otherTail
              exact ⟨rfl, rfl⟩

theorem ResolvesAll.reached {done rest : List (Scope × Expression)} {scope : Scope}
    {expression : Expression} {earlier : List Resolved}
    (derived : ResolvesAll frame (done ++ (scope, expression) :: rest) before trees after)
    (first : ResolvesAll frame done before earlier between) :
    ∃ tree further, Resolves frame scope expression between tree further ∧
      further.Extends after := by
  induction done generalizing before trees earlier with
  | nil =>
      cases first
      cases derived with
      | cons head tail => exact ⟨_, _, head, tail.extends⟩
  | cons item done ih =>
      cases first with
      | cons firstHead firstTail =>
          cases derived with
          | cons head tail =>
              obtain ⟨rfl, rfl⟩ := firstHead.unique head
              exact ih tail firstTail

theorem ResolvesAll.reached_each {scope : Scope} {expressions done rest : List Expression}
    {expression : Expression} {earlier : List Resolved}
    (derived : ResolvesAll frame (scope.each expressions) before trees after)
    (split : expressions = done ++ expression :: rest)
    (first : ResolvesAll frame (scope.each done) before earlier between) :
    ∃ tree further, Resolves frame scope expression between tree further ∧
      further.Extends after := by
  unfold Scope.each at derived
  rw [split, List.map_append, List.map_cons] at derived
  exact derived.reached first

end

namespace Visit

/-- The visit succeeds, and what is gathered until then is kept until the end. -/
def KeptUntil (visit : Visit) (finish : Progress) : Prop :=
  ∃ tree after, Resolves visit.frame visit.scope visit.expression visit.progress tree after ∧
    after.Extends finish

variable {visit next : Visit} {finish : Progress}

theorem Leads.isSubquery (leads : visit.Leads next) (inside : visit.frame.isSubquery = true) :
    next.frame.isSubquery = true := by
  cases leads with
  | clause _ enters =>
      cases enters
      rfl
  | _ => exact inside

theorem Descends.keptUntil (descends : visit.Descends next) (kept : visit.KeptUntil finish) :
    next.KeptUntil finish := by
  obtain ⟨leads, same⟩ := descends
  obtain ⟨tree, after, derived, grown⟩ := kept
  cases leads with
  | operand split first =>
      obtain ⟨trees, given⟩ := derived.each_operand (mem_of_split split)
      obtain ⟨_, _, here, later⟩ := given.reached_each split first
      exact ⟨_, _, here, later.trans grown⟩
  | key _ _ split _ first _ =>
      cases derived with
      | table _ _ given _ _ =>
          obtain ⟨_, _, here, later⟩ := given.reached_each split first
          refine ⟨_, _, here, later.trans (.trans ?_ grown)⟩
          exact { Progress.Extends.refl _ with }
  -- A call has one meaning, so the derivation takes the rule that the visit took.
  | argument declared _ _ split first =>
      cases derived with
      | declared _ _ _ given inner =>
          obtain ⟨_, _, here, later⟩ := given.reached_each split first
          exact ⟨_, _, here, (later.trans inner.extends).trans grown⟩
      | script undeclared _ _ => cases declared.symm.trans undeclared
      | aggregation undeclared _ _ _ _ _ _ _ _ _ => cases declared.symm.trans undeclared
  | body declared _ _ first =>
      cases derived with
      | declared again _ _ given inner =>
          cases declared.symm.trans again
          obtain ⟨rfl, rfl⟩ := first.unique given
          exact ⟨_, _, inner, grown⟩
      | script undeclared _ _ => cases declared.symm.trans undeclared
      | aggregation undeclared _ _ _ _ _ _ _ _ _ => cases declared.symm.trans undeclared
  | scriptArgument undeclared found split first =>
      cases derived with
      | declared declared _ _ _ _ => cases declared.symm.trans undeclared
      | script _ _ given =>
          obtain ⟨_, _, here, later⟩ := given.reached_each split first
          exact ⟨_, _, here, later.trans grown⟩
      | aggregation _ unscripted _ _ _ _ _ _ _ _ =>
          cases (SymbolContext.any_of_script? found).symm.trans unscripted
  | parameter passes =>
      cases passes with
      | intro undeclared unscripted known _ _ _ created split first _ =>
          cases derived with
          | declared declared _ _ _ _ => cases declared.symm.trans undeclared
          | script _ found _ =>
              cases (SymbolContext.any_of_script? found).symm.trans unscripted
          | aggregation _ _ again _ _ _ otherCreated given _ added =>
              cases known.symm.trans again
              obtain ⟨rfl, rfl⟩ := created.unique otherCreated
              obtain ⟨_, _, here, later⟩ := given.reached_each split first
              exact ⟨_, _, here, (later.trans (Progress.extends_of_add added)).trans grown⟩
  | clause _ _ => exact absurd rfl (same _ _)

theorem keptUntil_of_descends (reaches : Relation.ReflTransGen Descends visit next)
    (kept : visit.KeptUntil finish) : next.KeptUntil finish := by
  induction reaches with
  | refl => exact kept
  | tail _ descends ih => exact descends.keptUntil ih

theorem Leads.keptUntil (leads : visit.Leads next) (kept : visit.KeptUntil finish) :
    next.KeptUntil finish ∨ next.frame.isSubquery = true := by
  obtain ⟨frame, scope, expression, before⟩ := visit
  cases expression with
  | subquery position statement =>
      cases leads with
      | operand split _ => cases mem_of_split split
      | clause _ enters =>
          cases enters
          exact .inr rfl
  | _ => exact .inl (Descends.keptUntil ⟨leads, nofun⟩ kept)

/-- All visits on the way from one that succeeds succeed and are kept, up to subqueries. -/
theorem keptUntil_of_reaches (reaches : Relation.ReflTransGen Leads visit next)
    (kept : visit.KeptUntil finish) : next.KeptUntil finish ∨ next.frame.isSubquery = true := by
  induction reaches with
  | refl => exact .inl kept
  | tail _ leads ih =>
      rcases ih with here | inside
      · exact leads.keptUntil here
      · exact .inr (leads.isSubquery inside)

end Visit

theorem Enters.keptUntil {services : Services} {order : Nat → List Nat} {isSubquery : Bool}
    {statement : Statement} {symbols : SymbolContext} {memory : CompilerMemory}
    {streams : List StreamBinding} {trees : List Resolved} {entered : Visit} {finish : Progress}
    (bound : bindStreams services.registry [] statement.streams = .ok streams)
    (given : ResolvesAll (.ofStatement services order isSubquery statement streams) statement.items
      (.opening statement symbols memory) trees finish)
    (enters : Enters services order isSubquery statement symbols memory entered) :
    entered.KeptUntil finish := by
  cases enters with
  | intro again split first =>
      cases bound.symm.trans again
      rw [split] at given
      exact given.reached first

end EventQuery
